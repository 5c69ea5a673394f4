import BoingObserver.Contract.Word

/-!
# Receipts

The log parsers of `tx-decode.ts`.  A log whose label names an inherited
property of the label table passes the table test with a kind that is no event
kind; it is kept as an event of its own (`AmmEvent.inherited`).

Everything a description reads of a receipt is here: the success field
(`isOk`, `isFailed`) and the reads made only behind it (`swapEvents`,
`amountOut`, `addEvent`, `removeEvent`, `depositEvent`).  `Silent` receipts give
nothing to those.
-/

namespace BoingObserver.Contract

open Js

/-! ## Receipts and logs -/

structure LogEntry where
  topics : Option (List Text)
  data : Option Text

/-- `NonNullable<ReceiptLike>` -/
structure Receipt where
  success : Option Bool
  returnData : Option Text
  logs : Option (List LogEntry)

/-- The printable ASCII a topic spells, zero-padded on the right. -/
def labelFrom : List Text → Option Text
  | [] => some []
  | byte :: bytes =>
    let b := numeral 16 byte
    if b = 0 then if ∀ h ∈ bytes, numeral 16 h = 0 then some [] else none
    else if b < 0x20 ∨ b > 0x7e then none
    else (labelFrom bytes).map (Char.ofNat b :: ·)

def asciiLabel (topic : Text) : Option Text :=
  let h := toLowerCase (strip0x topic)
  if IsWord h then labelFrom (chunks 2 h) else none

/-- The label and the three `u128` words of a `Log2` row whose label is in the table. -/
def eventWords {κ : Type} (labels : List (Text × κ)) (log : LogEntry) :
    Option (Slot κ × ℕ × ℕ × ℕ) :=
  match log.topics.bind (·.head?) with
  | none => none
  | some [] => none
  | some t0 =>
    match recordGet labels ((asciiLabel t0).getD []) with
    | .absent => none
    | kind =>
      match (calldataWords (.string (log.data.getD []))).bind (·.mapM wordU128) with
      | some [a, b, c] => some (kind, a, b, c)
      | _ => none

/-! ## Native AMM events -/

inductive AmmEvent
  | swap (direction amountIn amountOut : ℕ)
  | addLiquidity (amountA amountB lpMinted : ℕ)
  | removeLiquidity (liquidity amountA amountB : ℕ)
  | inherited (liquidity amountA amountB : ℕ)

inductive AmmKind
  | swap
  | addLiquidity
  | removeLiquidity

/-- `LOG_LABELS` -/
def logLabels : List (Text × AmmKind) :=
  [("BOING_NATIVEAMM_SWAP_V1", .swap),
   ("BOING_NATIVEAMM_ADDLP_V1", .addLiquidity),
   ("BOING_NATIVEAMM_RMLP_V1", .removeLiquidity)]

def parseAmmLog (log : LogEntry) : Option AmmEvent :=
  match eventWords logLabels log with
  | some (.own .swap, a, b, c) => some (.swap a b c)
  | some (.own .addLiquidity, a, b, c) => some (.addLiquidity a b c)
  | some (.own .removeLiquidity, a, b, c) => some (.removeLiquidity a b c)
  | some (.inherited, a, b, c) => some (.inherited a b c)
  | _ => none

/-- Parse native AMM `Log2` rows in log order; other logs are skipped. -/
def parseAmmEvents (logs : Option (List LogEntry)) : List AmmEvent :=
  (logs.getD []).filterMap parseAmmLog

/-! ## LP vault events -/

inductive VaultEvent
  | deposit (amountA amountB shares : ℕ)
  /-- Withdraw logs the caller's minimums, not what the pool paid. -/
  | withdraw (shares minA minB : ℕ)
  | transfer (dest : Text) (shares : ℕ)
  | inherited (dest : Text) (shares : ℕ)

inductive VaultKind
  | deposit
  | withdraw
  | transfer

/-- `VAULT_LOG_LABELS` -/
def vaultLogLabels : List (Text × VaultKind) :=
  [("BOING_LP_VAULT_V2_DEPOSIT", .deposit),
   ("BOING_LP_VAULT_V2_WITHDRAW", .withdraw),
   ("BOING_LP_VAULT_V2_TRANSFER", .transfer)]

def parseVaultLog (log : LogEntry) : Option VaultEvent :=
  let dest := toLowerCase (strip0x ((log.topics.bind (·[1]?)).getD []))
  match eventWords vaultLogLabels log with
  | some (.own .deposit, a, b, c) => some (.deposit a b c)
  | some (.own .withdraw, a, b, c) => some (.withdraw a b c)
  | some (.own .transfer, _, b, _) => if IsWord dest then some (.transfer dest b) else none
  | some (.inherited, _, b, _) => if IsWord dest then some (.inherited dest b) else none
  | _ => none

/-- Parse LP vault v2 `Log2` rows in log order; other logs are skipped. -/
def parseVaultEvents (logs : Option (List LogEntry)) : List VaultEvent :=
  (logs.getD []).filterMap parseVaultLog

/-! ## What a description reads -/

/-- `receipt?.success` -/
def successOf (receipt : Option Receipt) : Option Bool := receipt.bind (·.success)

/-- `receipt?.success === false` -/
def isFailed (receipt : Option Receipt) : Bool := successOf receipt = some false

/-- `receipt?.success === true` -/
def isOk (receipt : Option Receipt) : Bool := successOf receipt = some true

/-- `ok ? parseAmmEvents(receipt?.logs) : []` -/
def ammEvents (receipt : Option Receipt) : List AmmEvent :=
  if isOk receipt then parseAmmEvents (receipt.bind (·.logs)) else []

/-- `ok ? parseVaultEvents(receipt?.logs) : []` -/
def vaultEvents (receipt : Option Receipt) : List VaultEvent :=
  if isOk receipt then parseVaultEvents (receipt.bind (·.logs)) else []

/-- The `amountIn` and `amountOut` of the swap events. -/
def swapEvents (receipt : Option Receipt) : List (ℤ × ℤ) :=
  (ammEvents receipt).filterMap fun e => match e with
    | .swap _ amountIn amountOut => some (amountIn, amountOut)
    | _ => none

/-- Actual output: the last hop's log, else the call's return word. -/
def amountOut (receipt : Option Receipt) : Option ℤ :=
  if isOk receipt then
    match (swapEvents receipt).getLast? with
    | some e => some e.2
    | none =>
      match receipt.bind (·.returnData) with
      | none => none
      | some [] => none
      | some data =>
        ((calldataWords (.string data)).bind (·.getLast?)).bind fun w =>
          (wordU128 w).map Int.ofNat
  else none

/-- The first `addLiquidity` event: both amounts and the LP minted. -/
def addEvent (receipt : Option Receipt) : Option (ℤ × ℤ × ℤ) :=
  (ammEvents receipt).findSome? fun e => match e with
    | .addLiquidity a b lp => some (a, b, lp)
    | _ => none

/-- The first `removeLiquidity` event: the LP burned and both amounts. -/
def removeEvent (receipt : Option Receipt) : Option (ℤ × ℤ × ℤ) :=
  (ammEvents receipt).findSome? fun e => match e with
    | .removeLiquidity lp a b => some (lp, a, b)
    | _ => none

/-- The first `deposit` event: both amounts and the shares minted. -/
def depositEvent (receipt : Option Receipt) : Option (ℤ × ℤ × ℤ) :=
  (vaultEvents receipt).findSome? fun e => match e with
    | .deposit a b shares => some (a, b, shares)
    | _ => none

/-! ## Receipts that say nothing but failure -/

/-- A receipt without success: every read behind the success test is empty. -/
structure Silent (receipt : Option Receipt) : Prop where
  isOk : isOk receipt = false
  swapEvents : swapEvents receipt = []
  amountOut : amountOut receipt = none
  addEvent : addEvent receipt = none
  removeEvent : removeEvent receipt = none
  depositEvent : depositEvent receipt = none

/-- **Only a receipt with `success` true is read further.** -/
theorem silent_of_not_success {receipt : Option Receipt} (h : successOf receipt ≠ some true) :
    Silent receipt := by
  have hok : isOk receipt = false := decide_eq_false h
  have hamm : ammEvents receipt = [] := by simp [ammEvents, hok]
  have hvault : vaultEvents receipt = [] := by simp [vaultEvents, hok]
  exact
    { isOk := hok
      swapEvents := by simp [swapEvents, hamm]
      amountOut := by simp [amountOut, hok]
      addEvent := by simp [addEvent, hamm]
      removeEvent := by simp [removeEvent, hamm]
      depositEvent := by simp [depositEvent, hvault] }

theorem silent_none : Silent none := silent_of_not_success (by decide)

end BoingObserver.Contract
