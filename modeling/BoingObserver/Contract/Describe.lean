import BoingObserver.Contract.Decode
import BoingObserver.Contract.Format
import BoingObserver.Contract.Receipt

/-!
# Describing a call

`describeDecodedCall` of `tx-decode.ts` with its five description functions.

They throw in two places only: an account argument that is missing where the
source asserts it (`acctOrThrow`), and a fee that is no integer (`feeRow`).
-/

namespace BoingObserver.Contract

open Js

/-! ## Descriptions -/

inductive DescriptionKind
  | approve
  | transfer
  | transferFrom
  | swap
  | addLiquidity
  | removeLiquidity
  | vaultDeposit
  | vaultWithdraw
  | vaultTransferShares
  | mint
  | call
  deriving DecidableEq

structure TxDescription where
  kind : DescriptionKind
  /-- Short action label, e.g. "Swap". -/
  title : Text
  /-- One sentence for lists and the top of the detail page. -/
  headline : List Segment
  rows : List DetailRow
  /-- true when the receipt says the call reverted. -/
  failed : Bool

/-! ## Arguments -/

def argU (call : DecodedCall) (name : Text) : ℤ :=
  ((call.args.find? fun a => a.name = name).bind (·.value)).getD 0

def argAcct (call : DecodedCall) (name : Text) : Option Text :=
  (call.args.find? fun a => a.name = name).bind (·.account)

/-- The verb of a headline: `failed ? attempted : ok ? done : plain`. -/
def verb (receipt : Option Receipt) (attempted done plain : Text) : Segment :=
  txt (if isFailed receipt then attempted else if isOk receipt then done else plain)

/-! ## Swaps -/

def poolTokens (pool : Text) (ctx : DecodeContext) : Option (Text × Text) :=
  (ctx.pools pool).map fun p => (p.tokenA, p.tokenB)

/-- The fee row of a single hop; `BigInt(10000 - feeBps)` throws unless it is an integer. -/
def feeRow (fl : FloatText) (feeBps : Option Number) (amount : ℤ) (tokenIn : Option Text)
    (ctx : DecodeContext) : Except JsError (List DetailRow) :=
  match feeBps with
  | none => .ok []
  | some feeBps =>
    let pct := fl.percent feeBps
    match tokenIn with
    | none => .ok [⟨"Pool fee", [txt pct]⟩]
    | some token =>
      match (fl.afterFeeBps feeBps).toInt? with
      | none => .error .rangeError
      | some k =>
        let afterFee := (amount * k).tdiv 10000
        .ok [⟨"Pool fee", [txt (pct ++ " of the input (≈ ")] ++
          amountTok (amount - afterFee) token ctx ++ [txt ")"]⟩]

def rateSegment (fl : FloatText) (inRaw outRaw : ℤ) (tIn tOut : Text) (ctx : DecodeContext) :
    Option (List Segment) :=
  if inRaw = 0 ∨ outRaw = 0 then none
  else
    let decimalsOf (token : Text) : Number :=
      ((ctx.tokens token).bind (·.decimals)).getD (.ofNat 0)
    (fl.rate inRaw outRaw (decimalsOf tIn) (decimalsOf tOut)).map fun rate =>
      [txt ("1 " ++ tokenSymbol tIn ctx ++ " ≈ " ++ rate ++ " " ++ tokenSymbol tOut ctx)]

structure Hop where
  pool : Text
  direction : ℤ
  tokenIn : Option Text
  tokenOut : Option Text

/-- A hop of a custody-router call: the token out is the other one of the pool's pair. -/
def custodyHop (ctx : DecodeContext) (h : RouterHop) : Hop where
  pool := h.pool
  direction := h.direction
  tokenIn := some h.tokenIn
  tokenOut :=
    match poolTokens h.pool ctx with
    | none => none
    | some (a, b) => if h.tokenIn = a then some b else if h.tokenIn = b then some a else none

def poolHop (ctx : DecodeContext) (call : DecodedCall) : Hop :=
  let tk := poolTokens call.contract ctx
  let dir := argU call "direction"
  { pool := call.contract
    direction := dir
    tokenIn := tk.map fun p => if dir = 0 then p.1 else p.2
    tokenOut := tk.map fun p => if dir = 0 then p.2 else p.1 }

def isCustodyRouter (call : DecodedCall) : Bool := call.interfaceId = "custody-router"

def swapHops (ctx : DecodeContext) (call : DecodedCall) : List Hop :=
  if isCustodyRouter call then (call.hops.getD []).map (custodyHop ctx) else [poolHop ctx call]

/-- `ctx.pools[pool]?.feeBps` -/
def feeBpsOf (pool : Text) (ctx : DecodeContext) : Option Number :=
  (ctx.pools pool).bind (·.feeBps)

def routeFees (fl : FloatText) (hops : List Hop) (ctx : DecodeContext) : List DetailRow :=
  match hops.mapM fun h => feeBpsOf h.pool ctx with
  | some fees =>
    if hops.length > 1 then
      [⟨"Pool fees", [txt ((fees.map fl.percent).intersperse (" + " : Text)).flatten]⟩]
    else []
  | none => []

def customFamily (call : DecodedCall) : Bool :=
  isCustodyRouter call || call.interfaceId = "pool-custody"

/-- The fee rows of a swap: in full for one hop of the custody family, as rates for several. -/
def feeRows (fl : FloatText) (call : DecodedCall) (hops : List Hop) (actualIn : ℤ)
    (tokenIn : Option Text) (ctx : DecodeContext) : Except JsError (List DetailRow) :=
  match hops with
  | [first] =>
    if customFamily call then feeRow fl (feeBpsOf first.pool ctx) actualIn tokenIn ctx
    else .ok []
  | hops => .ok (routeFees fl hops ctx)

def routeRow (hops : List Hop) (ctx : DecodeContext) : DetailRow where
  label := if hops.length > 1 then "Route (" ++ decimal hops.length ++ " hops)" else "Pool"
  value := joinSegs (hops.map fun h =>
    (match poolTokens h.pool ctx with
      | some (a, b) => [tok a ctx, txt " / ", tok b ctx, txt " pool "]
      | none => [txt "pool "]) ++ [bare h.pool]) " → "

def accountRow (label : Text) (account : Option Text) (ctx : DecodeContext) : List DetailRow :=
  match nonEmpty account with
  | some id => [⟨label, [acctSeg id ctx]⟩]
  | none => []

def towards (recipient : Option Text) (sender : Text) (ctx : DecodeContext) : List Segment :=
  match nonEmpty recipient with
  | some id => if id ≠ sender then [txt " → ", acctSeg id ctx] else []
  | none => []

def recipientRow (recipient : Option Text) (ctx : DecodeContext) : DetailRow :=
  ⟨"To (recipient)", [((nonEmpty recipient).map fun id => acctSeg id ctx).getD (txt "—")]⟩

def deadlineRows (deadline : ℤ) : List DetailRow :=
  if deadline > 0 then [⟨"Deadline", [txt ("block " ++ intText deadline)]⟩] else []

def routerRows (router : Option DecodedCall) (ctx : DecodeContext) : List DetailRow :=
  router.toList.map fun r => ⟨"Router", [acctSeg r.contract ctx .contract]⟩

/-- The effective rate, when the output and both tokens are known. -/
def rateRows (fl : FloatText) (actualIn : ℤ) (received : Option ℤ) (tokenIn tokenOut : Option Text)
    (ctx : DecodeContext) : List DetailRow :=
  match received, nonEmpty tokenIn, nonEmpty tokenOut with
  | some out, some tIn, some tOut =>
    (rateSegment fl actualIn out tIn tOut ctx).toList.map (DetailRow.mk "Effective rate")
  | _, _, _ => []

def swapHeadline (receipt : Option Receipt) (inSegs minSegs : List Segment)
    (outSegs : Option (List Segment)) : List Segment :=
  match outSegs with
  | some out => [txt "Swapped "] ++ inSegs ++ [txt " for "] ++ out
  | none =>
    if isFailed receipt then
      [txt "Attempted to swap "] ++ inSegs ++ [txt " for at least "] ++ minSegs ++
        [txt " (reverted)"]
    else [txt "Swap "] ++ inSegs ++ [txt " for at least "] ++ minSegs

def describeSwap (fl : FloatText) (call : DecodedCall) (sender : Text)
    (receipt : Option Receipt) (ctx : DecodeContext) (viaRouter : Option DecodedCall) :
    Except JsError TxDescription := do
  let inRaw := argU call "amount_in"
  let recipient :=
    if isCustodyRouter call then argAcct call "recipient"
    else some ((argAcct call "recipient").getD sender)
  let hops := swapHops ctx call
  let tokenIn := hops.head?.bind (·.tokenIn)
  let tokenOut := hops.getLast?.bind (·.tokenOut)
  let received := amountOut receipt
  let actualIn := ((swapEvents receipt).head?.map (·.1)).getD inRaw
  let inSegs := amountSegs inRaw (nonEmpty tokenIn) ctx
  let minSegs := amountSegs (argU call "min_out") (nonEmpty tokenOut) ctx
  let outSegs := received.map fun out => amountSegs out (nonEmpty tokenOut) ctx
  let router := viaRouter.or (if isCustodyRouter call then some call else none)
  let fees ← feeRows fl call hops actualIn tokenIn ctx
  return ⟨.swap, "Swap",
    swapHeadline receipt inSegs minSegs outSegs ++ towards recipient sender ctx,
    [⟨"Sold", inSegs⟩] ++ outSegs.toList.map (DetailRow.mk "Received") ++
      [⟨if isOk receipt then "Minimum accepted" else "Minimum out", minSegs⟩] ++
      rateRows fl actualIn received tokenIn tokenOut ctx ++ [routeRow hops ctx] ++
      routerRows router ctx ++ fees ++
      [⟨"From (signer)", [acctSeg sender ctx]⟩, recipientRow recipient ctx] ++
      deadlineRows (argU call "deadline"),
    isFailed receipt⟩

/-! ## Liquidity -/

def sideSegs (tk : Option (Text × Text)) (side : Text × Text → Text) (ctx : DecodeContext)
    (raw : ℤ) : List Segment :=
  amountSegs raw (tk.map side) ctx

def describeAddLiquidity (call : DecodedCall) (sender : Text) (receipt : Option Receipt)
    (ctx : DecodeContext) (tk : Option (Text × Text)) (poolRow : DetailRow) : TxDescription :=
  let ev := addEvent receipt
  let a := sideSegs tk Prod.fst ctx ((ev.map (·.1)).getD (argU call "amount_a"))
  let b := sideSegs tk Prod.snd ctx ((ev.map (·.2.1)).getD (argU call "amount_b"))
  let headline := [verb receipt "Attempted to add liquidity: " "Added liquidity: "
    "Add liquidity: "] ++ a ++ [txt " + "] ++ b
  let rows := [poolRow, ⟨"Deposited A", a⟩, ⟨"Deposited B", b⟩]
  let signer : DetailRow := ⟨"Provider (signer)", [acctSeg sender ctx]⟩
  match ev with
  | some (_, _, lp) =>
    ⟨.addLiquidity, "Add liquidity",
      headline ++ [txt (", minted " ++ formatTokenAmount lp none ++ " LP")],
      rows ++ [⟨"LP minted", [amt lp none ctx]⟩, signer], isFailed receipt⟩
  | none =>
    ⟨.addLiquidity, "Add liquidity", headline,
      rows ++ [⟨"Minimum LP", [amt (argU call "min_liquidity") none ctx]⟩, signer],
      isFailed receipt⟩

def describeRemoveLiquidity (call : DecodedCall) (sender : Text) (receipt : Option Receipt)
    (ctx : DecodeContext) (tk : Option (Text × Text)) (poolRow : DetailRow) : TxDescription :=
  let ev := removeEvent receipt
  let burned := (ev.map (·.1)).getD (argU call "liquidity")
  let side := fun which => sideSegs tk which ctx
  let headline := [verb receipt "Attempted to remove liquidity: burn " "Removed liquidity: burned "
    "Remove liquidity: burn ", amt burned none ctx, txt " LP"]
  let paid :=
    match ev with
    | some (_, a, b) => [txt " for "] ++ side Prod.fst a ++ [txt " + "] ++ side Prod.snd b
    | none => []
  let amounts : List DetailRow :=
    match ev with
    | some (_, a, b) => [⟨"Received A", side Prod.fst a⟩, ⟨"Received B", side Prod.snd b⟩]
    | none =>
      [⟨"Minimum A", side Prod.fst (argU call "min_a")⟩,
       ⟨"Minimum B", side Prod.snd (argU call "min_b")⟩]
  ⟨.removeLiquidity, "Remove liquidity", headline ++ paid,
    [poolRow, ⟨"LP burned", [amt burned none ctx]⟩] ++ amounts ++
      [⟨"Provider (signer)", [acctSeg sender ctx]⟩] ++
      accountRow "Recipient A" (argAcct call "recipient_a") ctx ++
      accountRow "Recipient B" (argAcct call "recipient_b") ctx,
    isFailed receipt⟩

def describeLiquidity (call : DecodedCall) (sender : Text) (receipt : Option Receipt)
    (ctx : DecodeContext) : TxDescription :=
  let tk := poolTokens call.contract ctx
  let pair :=
    match tk with
    | some (a, b) => [tok a ctx, txt " / ", tok b ctx]
    | none => [txt "the pool"]
  let poolRow : DetailRow := ⟨"Pool", pair ++ [txt " pool ", bare call.contract]⟩
  if call.fn.name = "add_liquidity" then
    describeAddLiquidity call sender receipt ctx tk poolRow
  else describeRemoveLiquidity call sender receipt ctx tk poolRow

/-! ## LP vaults -/

def vaultTokens (vault : Text) (ctx : DecodeContext) : Option (Text × Text) :=
  (ctx.vaults vault).map fun v => (v.tokenA, v.tokenB)

def vaultRows (vault : Text) (ctx : DecodeContext) : List DetailRow :=
  let value :=
    match vaultTokens vault ctx with
    | some (a, b) => [tok a ctx, txt " / ", tok b ctx, txt " vault ", bare vault]
    | none => [acctSeg vault ctx .contract]
  let pool := nonEmpty ((ctx.vaults vault).map (·.pool))
  [⟨"Vault", value⟩] ++ pool.toList.map fun p => ⟨"Pool", [bare p]⟩

def describeDeposit (call : DecodedCall) (sender : Text) (receipt : Option Receipt)
    (ctx : DecodeContext) : TxDescription :=
  let tk := vaultTokens call.contract ctx
  let ev := depositEvent receipt
  -- The vault log carries the amounts the pool actually took.
  let a := sideSegs tk Prod.fst ctx ((ev.map (·.1)).getD (argU call "amount_a"))
  let b := sideSegs tk Prod.snd ctx ((ev.map (·.2.1)).getD (argU call "amount_b"))
  let headline := [verb receipt "Attempted vault deposit: " "Deposited into vault: "
    "Vault deposit: "] ++ a ++ [txt " + "] ++ b
  let signer : DetailRow := ⟨"Depositor (signer)", [acctSeg sender ctx]⟩
  match ev with
  | some (_, _, shares) =>
    ⟨.vaultDeposit, "Vault deposit",
      headline ++ [txt ", minted ", amt shares none ctx, txt " vault shares"],
      vaultRows call.contract ctx ++ [⟨"Deposited A", a⟩, ⟨"Deposited B", b⟩,
        ⟨"Shares minted", [amt shares none ctx]⟩, signer], isFailed receipt⟩
  | none =>
    ⟨.vaultDeposit, "Vault deposit", headline,
      vaultRows call.contract ctx ++ [⟨"Offered A", a⟩, ⟨"Offered B", b⟩,
        ⟨"Minimum shares", [amt (argU call "min_shares") none ctx]⟩, signer],
      isFailed receipt⟩

def describeWithdraw (call : DecodedCall) (sender : Text) (receipt : Option Receipt)
    (ctx : DecodeContext) : TxDescription :=
  let side := fun which => sideSegs (vaultTokens call.contract ctx) which ctx
  let burned := amt (argU call "shares") none ctx
  -- The pool's own remove-liquidity log has what was paid out.
  let paid := (removeEvent receipt).map fun e => (side Prod.fst e.2.1, side Prod.snd e.2.2)
  let headline := [verb receipt "Attempted vault withdrawal: burn " "Withdrew from vault: burned "
    "Vault withdrawal: burn ", burned, txt " vault shares"]
  ⟨.vaultWithdraw, "Vault withdrawal",
    headline ++ (paid.elim [] fun p => [txt " for "] ++ p.1 ++ [txt " + "] ++ p.2),
    vaultRows call.contract ctx ++ [⟨"Shares burned", [burned]⟩] ++
      (paid.elim [] fun p => [⟨"Received A", p.1⟩, ⟨"Received B", p.2⟩]) ++
      [⟨"Minimum A", side Prod.fst (argU call "min_a")⟩,
       ⟨"Minimum B", side Prod.snd (argU call "min_b")⟩,
       ⟨"Holder (signer)", [acctSeg sender ctx]⟩],
    isFailed receipt⟩

def describeTransferShares (call : DecodedCall) (sender : Text) (receipt : Option Receipt)
    (ctx : DecodeContext) : TxDescription :=
  let dest := nonEmpty (argAcct call "to")
  let shares := amt (argU call "amount") none ctx
  ⟨.vaultTransferShares, "Transfer vault shares",
    [verb receipt "Attempted to send " "Sent " "Send ", shares, txt " vault shares"] ++
      (dest.elim [] fun id => [txt " to ", acctSeg id ctx]),
    vaultRows call.contract ctx ++
      [⟨"Shares", [shares]⟩, ⟨"From (signer)", [acctSeg sender ctx]⟩] ++
      accountRow "To" (argAcct call "to") ctx,
    isFailed receipt⟩

def describeVault (call : DecodedCall) (sender : Text) (receipt : Option Receipt)
    (ctx : DecodeContext) : Option TxDescription :=
  let name := call.fn.name
  if name = "deposit" then some (describeDeposit call sender receipt ctx)
  else if name = "withdraw" then some (describeWithdraw call sender receipt ctx)
  else if name = "transfer_shares" then some (describeTransferShares call sender receipt ctx)
  else none

/-! ## Tokens -/

/-- `MAX_U128` -/
def maxU128 : ℤ := 2 ^ 128 - 1

def tokenRow (token : Text) (ctx : DecodeContext) : DetailRow :=
  ⟨"Token", [tok token ctx, txt " ", bare token]⟩

def describeApprove (call : DecodedCall) (sender : Text) (receipt : Option Receipt)
    (ctx : DecodeContext) : Except JsError TxDescription := do
  let token := call.contract
  let amount := argU call "amount"
  let spender ← acctOrThrow (argAcct call "spender") ctx
  let amountText :=
    if amount = maxU128 then [txt "unlimited ", tok token ctx] else amountTok amount token ctx
  return ⟨.approve, "Token approval",
    [verb receipt "Attempted to approve " "Approved " "Approve ", spender, txt " to spend "] ++
      amountText,
    [tokenRow token ctx, ⟨"Allowance", amountText⟩,
     ⟨"Owner (signer)", [acctSeg sender ctx]⟩, ⟨"Spender", [spender]⟩],
    isFailed receipt⟩

def describeTransfer (call : DecodedCall) (sender : Text) (receipt : Option Receipt)
    (ctx : DecodeContext) : Except JsError TxDescription := do
  let token := call.contract
  let amount := amountTok (argU call "amount") token ctx
  let dest ← acctOrThrow (argAcct call "to") ctx
  return ⟨.transfer, "Token transfer",
    [verb receipt "Attempted to send " "Sent " "Send "] ++ amount ++ [txt " to ", dest],
    [tokenRow token ctx, ⟨"Amount", amount⟩, ⟨"From (signer)", [acctSeg sender ctx]⟩,
     ⟨"To (recipient)", [dest]⟩],
    isFailed receipt⟩

def describeTransferFrom (call : DecodedCall) (sender : Text) (receipt : Option Receipt)
    (ctx : DecodeContext) : Except JsError TxDescription := do
  let token := call.contract
  let amount := amountTok (argU call "amount") token ctx
  let owner ← acctOrThrow (argAcct call "from") ctx
  let dest ← acctOrThrow (argAcct call "to") ctx
  return ⟨.transferFrom, "Token transfer (spender)",
    [verb receipt "Attempted to move " "Moved " "Move "] ++ amount ++
      [txt " from ", owner, txt " to ", dest],
    [tokenRow token ctx, ⟨"Amount", amount⟩, ⟨"From (owner)", [owner]⟩,
     ⟨"To (recipient)", [dest]⟩, ⟨"Spender (signer)", [acctSeg sender ctx]⟩],
    isFailed receipt⟩

def describeMint (call : DecodedCall) (sender : Text) (receipt : Option Receipt)
    (ctx : DecodeContext) : Except JsError TxDescription := do
  let token := call.contract
  let amount := amountTok (argU call "amount") token ctx
  let dest ← acctOrThrow (argAcct call "to") ctx
  return ⟨.mint, "Initial mint",
    [verb receipt "Attempted initial mint of " "Minted initial supply of "
      "Mint initial supply of "] ++ amount ++ [txt " to ", dest],
    [tokenRow token ctx, ⟨"Amount", amount⟩, ⟨"Minted to", [dest]⟩,
     ⟨"Admin (signer)", [acctSeg sender ctx]⟩],
    isFailed receipt⟩

def describeToken (call : DecodedCall) (sender : Text) (receipt : Option Receipt)
    (ctx : DecodeContext) : Except JsError (Option TxDescription) :=
  let name := call.fn.name
  if name = "approve" then some <$> describeApprove call sender receipt ctx
  else if name = "transfer" then some <$> describeTransfer call sender receipt ctx
  else if name = "transfer_from" then some <$> describeTransferFrom call sender receipt ctx
  else if name = "mint_first" then some <$> describeMint call sender receipt ctx
  else .ok none

/-! ## Other calls -/

def argumentRow (ctx : DecodeContext) (a : DecodedArg) : Option DetailRow :=
  match nonEmpty a.account, a.value with
  | some id, _ => some ⟨a.name, [acctSeg id ctx]⟩
  | none, some v => some ⟨a.name, [amt v none ctx]⟩
  | none, none => none

def describeGeneric (call : DecodedCall) (sender : Text) (receipt : Option Receipt)
    (ctx : DecodeContext) : TxDescription :=
  let name := call.fn.name
  ⟨.call, name,
    [txt (if isFailed receipt then "Attempted " ++ name ++ " on " else "Called " ++ name ++ " on "),
     acctSeg call.contract ctx .contract],
    [⟨"Contract", [acctSeg call.contract ctx .contract]⟩,
     ⟨"Function", [txt (name ++ " (selector 0x" ++ padHex 2 call.fn.selector ++ ")")]⟩] ++
      call.args.filterMap (argumentRow ctx) ++ [⟨"Signer", [acctSeg sender ctx]⟩],
    isFailed receipt⟩

/-! ## The dispatch -/

def fungibleIfaces : List Text :=
  ["fungible-v1", "fungible-v2", "fungible-secured", "lp-share-token"]

/-- The fungible interfaces have descriptions of their own for some functions. -/
def describeFungible (call : DecodedCall) (sender : Text) (receipt : Option Receipt)
    (ctx : DecodeContext) : Except JsError TxDescription :=
  if call.interfaceId ∈ fungibleIfaces then do
    match ← describeToken call sender receipt ctx with
    | some d => return d
    | none => return describeGeneric call sender receipt ctx
  else .ok (describeGeneric call sender receipt ctx)

def describeOther (call : DecodedCall) (sender : Text) (receipt : Option Receipt)
    (ctx : DecodeContext) : Except JsError TxDescription :=
  match if call.interfaceId = "lp-vault-v2" then describeVault call sender receipt ctx else none with
  | some d => .ok d
  | none => describeFungible call sender receipt ctx

def isPoolCall (call : DecodedCall) : Bool := ("pool-" : Text).isPrefixOf call.interfaceId

def isSwap (call : DecodedCall) : Bool :=
  isPoolCall call && (call.fn.name = "swap" || call.fn.name = "swap_to")

def isLiquidity (call : DecodedCall) : Bool :=
  isPoolCall call && (call.fn.name = "add_liquidity" || call.fn.name = "remove_liquidity" ||
    call.fn.name = "remove_liquidity_to")

/-- The call a description is about: the inner one of a forwarded call. -/
def effective (call : DecodedCall) : DecodedCall := call.inner.getD call

/-- Turn a decoded call (+ receipt) into a headline and detail rows. -/
def describeDecodedCall (fl : FloatText) (call : DecodedCall) (sender : Text)
    (receipt : Option Receipt) (ctx : DecodeContext) : Except JsError TxDescription :=
  let viaRouter := if call.inner.isSome then some call else none
  if isCustodyRouter call then describeSwap fl call sender receipt ctx none
  else if isSwap (effective call) then
    describeSwap fl (effective call) sender receipt ctx viaRouter
  else if isLiquidity (effective call) then
    .ok (describeLiquidity (effective call) sender receipt ctx)
  else describeOther call sender receipt ctx

/-! ## Which function describes a call -/

theorem map_some_eq_ok {α : Type} {x : Except JsError α} {a : α}
    (h : some <$> x = .ok (some a)) : x = .ok a := by
  cases x with
  | error e => cases h
  | ok b => exact congrArg _ (Option.some.inj (Except.ok.inj h))

section Cases

variable {call : DecodedCall} {sender : Text} {receipt : Option Receipt} {ctx : DecodeContext}
  {d : TxDescription}

theorem describeFungible_eq_ok (h : describeFungible call sender receipt ctx = .ok d) :
    (call.interfaceId ∈ fungibleIfaces ∧ describeToken call sender receipt ctx = .ok (some d)) ∨
      ((call.interfaceId ∈ fungibleIfaces → describeToken call sender receipt ctx = .ok none) ∧
        d = describeGeneric call sender receipt ctx) := by
  rw [describeFungible] at h
  split_ifs at h with hf
  · obtain ⟨t, ht, h⟩ := bind_eq_ok h
    cases t with
    | some t =>
      obtain rfl := Except.ok.inj h
      exact Or.inl ⟨hf, ht⟩
    | none => exact Or.inr ⟨fun _ => ht, (Except.ok.inj h).symm⟩
  · exact Or.inr ⟨fun hm => absurd hm hf, (Except.ok.inj h).symm⟩

theorem describeOther_eq_ok (h : describeOther call sender receipt ctx = .ok d) :
    (call.interfaceId = "lp-vault-v2" ∧ describeVault call sender receipt ctx = some d) ∨
      (call.interfaceId = "lp-vault-v2" → describeVault call sender receipt ctx = none) ∧
        describeFungible call sender receipt ctx = .ok d := by
  rw [describeOther] at h
  by_cases hv : call.interfaceId = "lp-vault-v2"
  · rw [if_pos hv] at h
    cases hd : describeVault call sender receipt ctx with
    | some v =>
      rw [hd] at h
      exact Or.inl ⟨hv, congrArg some (Except.ok.inj h)⟩
    | none =>
      rw [hd] at h
      exact Or.inr ⟨fun _ => rfl, h⟩
  · rw [if_neg hv] at h
    exact Or.inr ⟨fun e => absurd e hv, h⟩

/-- **Which function describes a call.** -/
theorem describeDecodedCall_eq_ok {fl : FloatText}
    (h : describeDecodedCall fl call sender receipt ctx = .ok d) :
    (isCustodyRouter call = true ∧ describeSwap fl call sender receipt ctx none = .ok d) ∨
      (isCustodyRouter call = false ∧ isSwap (effective call) = true ∧
        ∃ v, describeSwap fl (effective call) sender receipt ctx v = .ok d) ∨
      (isCustodyRouter call = false ∧ isSwap (effective call) = false ∧
        isLiquidity (effective call) = true ∧
        d = describeLiquidity (effective call) sender receipt ctx) ∨
      (isCustodyRouter call = false ∧ isSwap (effective call) = false ∧
        isLiquidity (effective call) = false ∧
        describeOther call sender receipt ctx = .ok d) := by
  rw [describeDecodedCall] at h
  cases hc : isCustodyRouter call <;> rw [hc] at h
  · cases hs : isSwap (effective call) <;> rw [hs] at h
    · cases hl : isLiquidity (effective call) <;> rw [hl] at h
      · exact Or.inr (Or.inr (Or.inr ⟨rfl, rfl, rfl, h⟩))
      · exact Or.inr (Or.inr (Or.inl ⟨rfl, rfl, rfl, (Except.ok.inj h).symm⟩))
    · exact Or.inr (Or.inl ⟨rfl, rfl, _, h⟩)
  · exact Or.inl ⟨rfl, h⟩

end Cases

end BoingObserver.Contract
