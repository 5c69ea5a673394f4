import BoingObserver.NativeUnit.Format
import BoingObserver.Rpc.Call

/-!
# Rejections in plain words

`describeRpcRejection` of `rpc-error.ts`: what a code and the `reason` of a node's error mean to a
user, whether the error comes from a call, from a wallet that wraps it, or as it is.

* `describe_nested`: a wallet's error is explained as the node's error in it.
-/

namespace BoingObserver.Rpc

open Js NativeUnit

/-- `v && typeof v === "object" && !Array.isArray(v) ? v : null` -/
def asRecord : Value → Option Value
  | .object fields => some (.object fields)
  | _ => none

/-- `asRecord(v)?.[k]` -/
def recordField (v : Value) (k : Text) : Value :=
  match asRecord v with
  | some o => o.get k
  | none => .undefined

@[simp] theorem recordField_eq (v : Value) (k : Text) : recordField v k = v.get k := by
  cases v <;> rfl

structure RpcErrorLike where
  code : Option Number
  message : Text
  data : Value

/-- What is read of a call's error, a wallet's error, or the `error` of a response. -/
def toRpcErrorLike (err : Value) : Option RpcErrorLike :=
  (asRecord err).map fun o =>
    let nested := asRecord (recordField (o.get "data") "rpc")
    let src := nested.getD o
    { code := (asNumber? (src.get "code")).or (asNumber? (o.get "code"))
      message := ((src.get "message").asString?.or (o.get "message").asString?).getD []
      data := match nested with
        | some n => n.get "data"
        | none => o.get "data" }

/-- `/^\d{1,n}$/.test(s)` -/
def isNumeral (n : ℕ) (s : Text) : Bool := s ≠ [] && s.length ≤ n && s.all Char.isDigit

def fmtLedger (raw : Value) : Option Text :=
  let amount : Option ℕ :=
    match raw with
    | .string s => if isNumeral 39 s then some (numeral 10 s) else none
    | .number x => x.toSafeNat?
    | _ => none
  amount.map fun base => formatBoingBase base boingDecimals ++ (" BOING" : Text)

def num (nt : NumberText) : Value → Option Text
  | .number (.finite q) => some (nt.text (.finite q))
  | .string s => if isNumeral 20 s then some s else none
  | _ => none

def reasonText (nt : NumberText) (data : Value) (reason : Text) : Option Text :=
  if reason = "unknown_sender" then
    some (("This account has no balance on-chain yet, so the network does not know it. " : Text) ++
      ("Fund it first (on testnet, use the faucet), then try again." : Text))
  else if reason = "stale_nonce" then
    let detail : Text :=
      match num nt (recordField data "expected_nonce"), num nt (recordField data "got_nonce") with
      | some expected, some got =>
        (" (the network expects nonce " : Text) ++ expected ++ (", the transaction used " : Text) ++
          got ++ (")" : Text)
      | _, _ => []
    some (("The transaction nonce is out of date" : Text) ++ detail ++
      (". Refresh the account nonce and sign the transaction again." : Text))
  else if reason = "insufficient_fee" then
    let detail : Text :=
      match fmtLedger (recordField data "have"), fmtLedger (recordField data "need") with
      | some have', some need =>
        (" Balance " : Text) ++ have' ++ (", needed " : Text) ++ need ++
          (" (network fee plus any priority tip)." : Text)
      | _, _ => []
    some (("Not enough BOING to cover the network fee." : Text) ++ detail ++
      (" Add funds (testnet faucet) and retry." : Text))
  else if reason = "already_in_mempool" then
    some (("This exact transaction is already pending. " : Text) ++
      ("Wait for the next block instead of resubmitting." : Text))
  else if reason = "free_pending_limit" then
    some (("Too many zero-tip transactions are pending for this account. " : Text) ++
      ("Wait for them to confirm or attach a priority tip." : Text))
  else if reason = "free_tx_balance_gate" then
    some (("This account does not hold enough BOING for a fee-waived transaction. " : Text) ++
      ("Add funds or attach a priority tip." : Text))
  else if reason = "native_value_not_active" then
    some "Native value transfers inside contract calls are not active at the current block height."
  else if reason = "pool_full" then
    some "The QA review pool is full right now. Try again shortly."
  else if reason = "deployer_cap" then
    some "This deployer already has the maximum number of items in the QA review pool."
  else none

def codeText (data : Value) (code : ℤ) : Option Text :=
  if code = -32016 then
    some (("The faucet is rate-limited for this account. " : Text) ++
      ("Wait about a minute and try again." : Text))
  else if code = -32050 then
    let rule : Text :=
      match recordField data "rule_id" with
      | .string s => (" (rule " : Text) ++ s ++ (")" : Text)
      | _ => []
    let msg : Text :=
      match recordField data "message" with
      | .string s => if s = [] then [] else ' ' :: s
      | _ => []
    some (trim (("Quality assurance rejected this deployment" : Text) ++ rule ++ '.' :: msg))
  else if code = -32051 then
    some (("Quality assurance could not decide; " : Text) ++
      ("the deployment was sent to the governance review pool." : Text))
  else if code = -32052 then some "No pending QA item was found for that transaction hash."
  else if code = -32053 then
    some (("This account is not eligible to vote on that QA item " : Text) ++
      ("(not a pool member, own deployment, or stake below the minimum)." : Text))
  else if code = -32054 then some "The QA review pool is disabled by governance."
  else if code = -32055 then some "The QA review pool is full right now. Try again shortly."
  else if code = -32056 then
    some "This deployer already has the maximum number of items in the QA review pool."
  else if code = -32057 then some "This operator action needs a valid operator token."
  else none

def describe (nt : NumberText) (code : Option Number) (data : Value) : Option Text :=
  match ((recordField data "reason").asString?).bind (reasonText nt data) with
  | some text => some text
  | none => (code.bind Number.toInt?).bind (codeText data)

/-- Plain words for a node's rejection; nothing for an error it does not know. -/
def describeRpcRejection (nt : NumberText) (err : Value) : Option Text :=
  (toRpcErrorLike err).bind fun like => describe nt like.code like.data

theorem describeRpcRejection_object {nt : NumberText} {err : Value} {fields : List (Text × Value)}
    (h : err = .object fields) (hrpc : asRecord ((err.get "data").get "rpc") = none) :
    describeRpcRejection nt err = describe nt (asNumber? (err.get "code")) (err.get "data") := by
  subst h
  rw [describeRpcRejection, toRpcErrorLike, asRecord, Option.map_some, Option.bind_some]
  dsimp only
  rw [recordField_eq, hrpc]
  simp only [Option.getD_none, Option.or_self]

/-- **A wallet's error** is explained as the node's error in it; its own code counts where that has
none. -/
theorem describe_nested {nt : NumberText} {err : Value} {fields inner : List (Text × Value)}
    (h : err = .object fields) (hrpc : (err.get "data").get "rpc" = .object inner) :
    describeRpcRejection nt err =
      describe nt ((asNumber? (Value.get (.object inner) "code")).or (asNumber? (err.get "code")))
        (Value.get (.object inner) "data") := by
  subst h
  rw [describeRpcRejection, toRpcErrorLike, asRecord, Option.map_some, Option.bind_some]
  dsimp only
  rw [recordField_eq, hrpc]
  rfl

end BoingObserver.Rpc
