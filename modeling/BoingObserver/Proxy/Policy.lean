import BoingObserver.Js.Coerce

/-!
# The policy of the RPC proxy

`validateProxyRequest` of `rpc-proxy-policy.ts`: which request of the browser goes to a
node, and what of it.

* `validateProxyRequest_ok`: what an accepted request is.
-/

namespace BoingObserver.Proxy

open Js

/-- `ALLOWED_RPC_METHODS` -/
def allowedRpcMethods : List Text :=
  ["boing_chainHeight", "boing_getSyncState", "boing_health", "boing_getBlockByHeight",
    "boing_getBlockByHash", "boing_getTransactionReceipt", "boing_getAccount",
    "boing_getNetworkInfo", "boing_getNetworkFeePolicy", "boing_getContractCode",
    "boing_getContractStorage",
    -- Account Merkle proofs
    "boing_getAccountProof", "boing_verifyAccountProof", "boing_getQaRegistry", "boing_qaPoolList",
    "boing_qaPoolConfig", "boing_getRpcMethodCatalog", "boing_qaCheck", "boing_faucetRequest",
    -- .boing name registry
    "boing_resolveName", "boing_reverseName", "boing_getNameInfo", "boing_checkNames",
    "boing_namesOwnedBy", "boing_simulateContractCall",
    -- Media blob metadata
    "boing_getBlobMeta"]

def maxRpcParams : ℕ := 8

/-- `METHOD_RE`: `/^[A-Za-z][A-Za-z0-9_]{0,63}$/` -/
def isMethodName : Text → Bool
  | [] => false
  | c :: s => c.isAlpha && s.all (fun d => d.isAlphanum || d = '_') && s.length ≤ 63

structure ProxyRequest where
  id : ℤ
  method : Text
  params : List Value

def ProxyRequest.toValue (r : ProxyRequest) : Value :=
  .object [("jsonrpc", .string "2.0"), ("id", .number (.finite r.id)), ("method", .string r.method),
    ("params", .array r.params)]

inductive ProxyValidation
  | ok (request : ProxyRequest)
  | invalid (error : Text) (id : ℤ)
  | methodNotAllowed (method : Text) (id : ℤ)

def requestId : Value → ℤ
  | .number x =>
    match x.toInt? with
    | some z => if z.natAbs < 2 ^ 53 then z else 0
    | none => 0
  | _ => 0

/-- `b.params === undefined ? [] : b.params`, if it is an array that is not too long. -/
def requestParams (v : Value) : Option (List Value) :=
  match v with
  | .undefined => some []
  | .array params => if params.length ≤ maxRpcParams then some params else none
  | _ => none

/-- `v === "2.0"` -/
def isVersion : Value → Bool
  | .string s => s = "2.0"
  | _ => false

def validateProxyRequest (body : Value) : ProxyValidation :=
  match body with
  | .object _ =>
    let id := requestId (body.get "id")
    match body.get "method" with
    | .string method =>
      if ¬ isVersion (body.get "jsonrpc") ∨ ¬ isMethodName method then
        .invalid "Invalid JSON-RPC 2.0 request" id
      else if method ∉ allowedRpcMethods then .methodNotAllowed method id
      else
        match requestParams (body.get "params") with
        | some params => .ok { id, method, params }
        | none =>
          .invalid (("params must be an array of at most " : Text) ++ decimal maxRpcParams ++
            (" items" : Text)) id
    | _ => .invalid "Invalid JSON-RPC 2.0 request" id
  | _ => .invalid "Invalid JSON-RPC 2.0 request" 0

theorem natAbs_requestId_lt (v : Value) : (requestId v).natAbs < 2 ^ 53 := by
  unfold requestId
  split
  · split
    · split
      next h => exact h
      next => decide
    · decide
  · decide

theorem length_requestParams_le {v : Value} {params : List Value}
    (h : requestParams v = some params) : params.length ≤ maxRpcParams := by
  unfold requestParams at h
  split at h
  · obtain rfl := Option.some.inj h
    exact Nat.zero_le _
  · split at h
    next hle =>
      obtain rfl := Option.some.inj h
      exact hle
    next => cases h
  · cases h

structure ProxyRequest.Conforms (r : ProxyRequest) : Prop where
  safe_id : r.id.natAbs < 2 ^ 53
  allowed : r.method ∈ allowedRpcMethods
  few_params : r.params.length ≤ maxRpcParams

/-- **An accepted request** has an allowed method, the one asked for, and little else. -/
theorem validateProxyRequest_ok {body : Value} {r : ProxyRequest}
    (h : validateProxyRequest body = .ok r) :
    r.Conforms ∧ body.get "method" = .string r.method ∧ r.id = requestId (body.get "id") ∧
      requestParams (body.get "params") = some r.params := by
  unfold validateProxyRequest at h
  split at h
  · dsimp only at h
    split at h
    next method hmethod =>
      split at h
      · cases h
      · split at h
        · cases h
        next hallowed =>
          split at h
          next params hparams =>
            obtain rfl := ProxyValidation.ok.inj h
            exact ⟨⟨natAbs_requestId_lt _, not_not.mp hallowed, length_requestParams_le hparams⟩,
              hmethod, rfl, hparams⟩
          next => cases h
    next => cases h
  · cases h

end BoingObserver.Proxy
