import BoingObserver.Qa.Reviewer
import BoingObserver.Rpc.Rejection

/-!
# Boing Express

The helpers of `boing-wallet.ts`: what the explorer asks of a wallet, be it the extension or the
web wallet, and what it tells the user of a wallet's error.

* `ensureWalletChain` and the other requests are programs over whatever answers the provider.
* `mapWalletErrorToUi_of_describe`: a node's rejection is explained, wrapped or not.
-/

namespace BoingObserver.Wallet

open Js Rpc NativeUnit Oracle

/-! ## Errors -/

/-- What is thrown: whether it is an `Error`, and what its properties are read from. -/
structure Raised where
  isError : Bool
  value : Value

/-- `new Error(message)` -/
def newError (message : Text) : Raised := ⟨true, .object [("message", .string message)]⟩

/-- `typeof o?.[k] === "string" ? o[k] : ""` -/
def stringField (o : Value) (k : Text) : Text := ((o.get k).asString?).getD []

def boingCode (err : Raised) : Text := stringField (err.value.get "data") "boingCode"

/-- Some of the patterns, which have no `k`, matches: `/a|b/i.test(msg)`. -/
def testsAny (patterns : List Text) (msg : Text) : Bool :=
  patterns.any fun p => includes (toLowerCase msg) p

def isWalletUserRejected (err : Raised) : Bool :=
  let code := asNumber? (err.value.get "code")
  code = some (Number.ofNat 4001) || boingCode err = "BOING_USER_REJECTED" ||
    boingCode err = "BOING_USER_REJECTED_SIGNING" ||
      testsAny ["user rejected", "denied", "cancelled", "canceled"] (stringField err.value "message")

def messageText (nt : NumberText) (err : Raised) : Text :=
  if err.isError then nt.stringOf (err.value.get "message")
  else
    match err.value with
    | .object fields =>
      match fields.lookup ("message" : Text) with
      | some m => nt.stringOf (m.orElse (.string []))
      | none => nt.stringOf err.value
    | v => nt.stringOf v

/-- `/unsupported transaction type:\s*qa_pool_vote/i.test(msg)` -/
def namesUnsupportedType (msg : Text) : Bool :=
  let pattern : Text := "unsupported transaction type:"
  (toLowerCase msg).tails.any fun t =>
    pattern.isPrefixOf t &&
      ("qa_pool_vote" : Text).isPrefixOf ((t.drop pattern.length).dropWhile isSpace)

def isQaPoolVoteUnsupported (nt : NumberText) (err : Raised) : Bool :=
  let msg := messageText nt err
  namesUnsupportedType msg || (includes msg "qa_pool_vote" && testsAny ["unsupported"] msg)

/-- `s.slice(0, n)`, in UTF-16 units. -/
def takeUnits : ℕ → Text → Text
  | _, [] => []
  | n, c :: s =>
    let k := if c.toNat < 0x10000 then 1 else 2
    if k ≤ n then c :: takeUnits (n - k) s else []

def mapWalletErrorToUi (nt : NumberText) (err : Raised) : Text :=
  if isWalletUserRejected err then "Request was cancelled in Boing Express."
  else if isQaPoolVoteUnsupported nt err then
    "This Boing Express build cannot sign QA votes yet. Update the wallet, then try again."
  else
    match describeRpcRejection nt err.value with
    | some rejection => rejection
    | none =>
      let rpcMsg := trim (stringField ((err.value.get "data").get "rpc") "message")
      let msg := trim (stringField err.value "message")
      if rpcMsg ≠ [] then rpcMsg
      else if boingCode err = "BOING_WALLET_LOCKED" then "Unlock Boing Express to continue."
      else if boingCode err = "BOING_NO_WALLET" then
        "No wallet in Boing Express. Create or import one in the extension."
      else if boingCode err = "BOING_ORIGIN_NOT_CONNECTED" then
        "Connect this site in Boing Express first."
      else if msg ≠ [] then
        if 200 < utf16Length msg then takeUnits 197 msg ++ ("…" : Text) else msg
      else "Wallet request failed. Unlock Boing Express and try again."

/-- **A rejection that is explained** is what the user reads, unless it was the user's own. -/
theorem mapWalletErrorToUi_of_describe {nt : NumberText} {err : Raised} {text : Text}
    (hown : isWalletUserRejected err = false) (hsupported : isQaPoolVoteUnsupported nt err = false)
    (h : describeRpcRejection nt err.value = some text) : mapWalletErrorToUi nt err = text := by
  rw [mapWalletErrorToUi, hown, hsupported, h]
  rfl

/-! ## Requests -/

section

variable {Q : Type} {A : Q → Type}

structure BoingInjectedProvider (A : Q → Type) where
  request : Text → List Value → Async A Raised Value

def chainIdHexForNetwork : NetworkId → Text
  | .mainnet => "0x1b02"
  | .testnet => "0x1b01"

inductive QaVoteKind
  | allow
  | reject
  | abstain
  deriving DecidableEq

def QaVoteKind.text : QaVoteKind → Text
  | .allow => "allow"
  | .reject => "reject"
  | .abstain => "abstain"

/-- The transaction `{ type, subject, vote }`. -/
def qaPoolVoteTxRequest (subjectTxHash : Text) (vote : QaVoteKind) : Except Raised Value :=
  let hex := Qa.normalizeVoterHex subjectTxHash
  if Qa.isAccountHex hex then
    .ok (.object [("type", .string "qa_pool_vote"), ("subject", .string ("0x" ++ hex)),
      ("vote", .string vote.text)])
  else .error (newError "QA vote subject must be a 32-byte transaction hash.")

def asStringArray (v : Value) : List Text :=
  match v with
  | .array items => (items.mapM Value.asString?).getD []
  | _ => []

/-- `walletAccounts`, of the wallet's answer to `boing_accounts`. -/
def walletAccounts (a : Value) : List Text := asStringArray a

/-- `walletRequestAccounts`, of its answer to `boing_requestAccounts`. -/
def walletRequestAccounts (a : Value) : Except Raised (List Text) :=
  let list := asStringArray a
  if list = [] then
    .error (newError "Boing Express did not return an account. Unlock the wallet and try again.")
  else .ok list

/-- The chain id that the wallet's answer to `boing_chainId` is. -/
def readChainId (id : Value) : Except Raised Text :=
  match id with
  | .string s =>
    if ("0x" : Text).isPrefixOf s then .ok (toLowerCase s)
    else .error (newError "Wallet did not return a Boing chain id.")
  | _ => .error (newError "Wallet did not return a Boing chain id.")

def walletChainIdHex (provider : BoingInjectedProvider A) : Async A Raised Text := do
  let id ← provider.request "boing_chainId" []
  Async.ofExcept (readChainId id)

def ensureWalletChain (provider : BoingInjectedProvider A) (network : NetworkId) :
    Async A Raised Unit := do
  let want := toLowerCase (chainIdHexForNetwork network)
  let have' ← walletChainIdHex provider
  if have' = want then pure ()
  else do
    let _ ← provider.request "boing_switchChain" [.object [("chainId", .string want)]]
    pure ()

def textOf (message : Text) (out : Value) : Except Raised Text :=
  match out with
  | .string s => if trim s = [] then .error (newError message) else .ok s
  | _ => .error (newError message)

def walletSendTransaction (provider : BoingInjectedProvider A) (tx : Value) :
    Async A Raised Text := do
  let out ← provider.request "boing_sendTransaction" [tx]
  Async.ofExcept (textOf "Wallet did not return a transaction hash." out)

def walletSignTransaction (provider : BoingInjectedProvider A) (tx : Value) :
    Async A Raised Text := do
  let out ← provider.request "boing_signTransaction" [tx]
  Async.ofExcept (textOf "Wallet did not return a signed transaction." out)

end

def firstAccountHex (accounts : List Text) : Option Text :=
  let first := accounts.head?.getD []
  let hex := if first = [] then [] else Qa.normalizeVoterHex first
  if Qa.isAccountHex hex then some hex else none

theorem isAccountHex_of_firstAccountHex {accounts : List Text} {hex : Text}
    (h : firstAccountHex accounts = some hex) : Qa.isAccountHex hex = true := by
  obtain ⟨hok, heq⟩ := Option.ite_none_right_eq_some.mp h
  rwa [Option.some.inj heq] at hok

end BoingObserver.Wallet
