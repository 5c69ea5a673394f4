import BoingObserver.Js.Coerce

/-!
# The web wallet

Requests to the wallet of boing.express and the check of what comes back, of
`boing-web-wallet.ts`.  A request is answered in another window or on another page, so
whoever answers may be anyone.

* `validateBoingWebResponse_eq_ok_iff`: exactly which responses are taken.
-/

namespace BoingObserver.Wallet

open Js

def boingWebRequestType : Text := "boing_web_request"

def boingWebResponseType : Text := "boing_web_response"

def boingWebReadyType : Text := "boing_web_ready"

inductive BoingWebMethod
  | requestAccounts
  | signMessage
  | signTransaction
  | sendTransaction
  deriving DecidableEq

def BoingWebMethod.text : BoingWebMethod → Text
  | .requestAccounts => "boing_requestAccounts"
  | .signMessage => "boing_signMessage"
  | .signTransaction => "boing_signTransaction"
  | .sendTransaction => "boing_sendTransaction"

structure BoingWebRequest where
  v : ℕ
  type : Text
  id : Text
  method : BoingWebMethod
  params : List Value
  origin : Text
  returnUrl : Text
  chainId : Text
  issuedAt : ℤ
  expiresAt : ℤ

structure Expected where
  id : Text
  origin : Text
  chainId : Text
  deriving DecidableEq

def BoingWebRequest.expected (req : BoingWebRequest) : Expected := ⟨req.id, req.origin, req.chainId⟩

/-- `window.location` -/
structure Location where
  origin : Text
  href : Text

/-- A request from the page at `loc`; `id` is the random one. -/
def createBoingWebRequest (loc : Location) (id : Text) (now : ℤ) (method : BoingWebMethod)
    (params : List Value) (chainId : Text) : BoingWebRequest where
  v := 1
  type := boingWebRequestType
  id
  method
  params
  origin := loc.origin
  returnUrl := loc.href.takeWhile (· ≠ '#')
  chainId := toLowerCase chainId
  issuedAt := now
  expiresAt := now + min (5 * 60000) (10 * 60000)

/-- What is thrown: an `Error`, a `TypeError`, or an error of the wallet. -/
inductive WalletError
  | error (message : Text)
  | typeError
  | wallet (code message boingCode : Value)

/-- `x && typeof x === "object"` -/
def isObject : Value → Bool
  | .array _ => true
  | .object _ => true
  | _ => false

/-- `v === s` for a text `s`. -/
def isText (v : Value) (s : Text) : Bool := v.asString? = some s

/-- `v === 1` -/
def isOne : Value → Bool
  | .number x => x = .finite 1
  | _ => false

/-- What a response to the request says: its result, or the error of the wallet. -/
def responseResult (resp : Value) : Except WalletError Value :=
  let error := resp.get "error"
  if error.truthy then
    .error (.wallet (error.get "code") (error.get "message")
      (((error.get "data").get "boingCode").orElse (.string "BOING_WEB_ERROR")))
  else .ok (resp.get "result")

/-- Checks a response against the pending request: its result, or what is thrown. -/
def validateBoingWebResponse (resp : Value) (req : Expected) : Except WalletError Value :=
  if isObject resp = false then .error (.error "Invalid web wallet response")
  else if ¬ (isText (resp.get "type") boingWebResponseType ∧ isOne (resp.get "v")) then
    .error (.error "Invalid web wallet response type")
  else if ¬ isText (resp.get "id") req.id then
    .error (.error "Web wallet response id mismatch")
  else if ¬ isText (resp.get "origin") req.origin then
    .error (.error "Web wallet response origin mismatch")
  else if ¬ isText (resp.get "chainId") req.chainId then
    .error (.error "Web wallet response chain mismatch")
  else responseResult resp

structure Answers (resp : Value) (req : Expected) : Prop where
  object : isObject resp = true
  type : isText (resp.get "type") boingWebResponseType
  version : isOne (resp.get "v")
  id : isText (resp.get "id") req.id
  origin : isText (resp.get "origin") req.origin
  chainId : isText (resp.get "chainId") req.chainId

theorem validateBoingWebResponse_of_answers {resp : Value} {req : Expected}
    (h : Answers resp req) : validateBoingWebResponse resp req = responseResult resp := by
  rw [validateBoingWebResponse, if_neg (ne_false_of_eq_true h.object),
    if_neg (not_not_intro ⟨h.type, h.version⟩), if_neg (not_not_intro h.id),
    if_neg (not_not_intro h.origin), if_neg (not_not_intro h.chainId)]

/-- **Which responses are taken**: those to the request without an error. -/
theorem validateBoingWebResponse_eq_ok_iff {resp : Value} {req : Expected} {v : Value} :
    validateBoingWebResponse resp req = .ok v ↔
      Answers resp req ∧ (resp.get "error").truthy = false ∧ v = resp.get "result" := by
  constructor
  · intro h
    have hanswers : Answers resp req := by
      rw [validateBoingWebResponse] at h
      split_ifs at h with hobject htype hid horigin hchain
      exact ⟨Bool.eq_true_of_not_eq_false hobject, htype.1, htype.2, hid, horigin, hchain⟩
    rw [validateBoingWebResponse_of_answers hanswers, responseResult] at h
    refine ⟨hanswers, ?_⟩
    cases herror : (resp.get "error").truthy with
    | true =>
      rw [herror] at h
      cases h
    | false =>
      rw [herror] at h
      exact ⟨rfl, (Except.ok.inj h).symm⟩
  · rintro ⟨h, herror, rfl⟩
    rw [validateBoingWebResponse_of_answers h, responseResult, herror]
    rfl

end BoingObserver.Wallet
