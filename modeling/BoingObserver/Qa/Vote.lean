import BoingObserver.Handler
import BoingObserver.Proxy.Route
import BoingObserver.Wallet.Express

/-!
# Votes on the review pool

A vote from the button to the node: `cast` of `qa-reviewer-gate.tsx` asks the wallet and the
explorer's own server, whose handler `app/api/qa/vote/route.ts` asks the node of the pool.

* `Submitted`: what one request to the handler asks of the node, and what comes back.
* `cast_exact`: what a vote asks of the wallet and of the node, whatever they answer.
-/

namespace BoingObserver.Qa

open Js Http Rpc NativeUnit Oracle Wallet

/-! ## The handler -/

def votes : List Text := ["allow", "reject", "abstain"]

/-- The variables of `process.env` that the handler reads. -/
structure VoteEnv where
  rpc : RpcEnv
  qaVoteRpc : Option Text
  operatorToken : Option Text

/-- The node of the pool: its state is in the memory of the validator, so there is no other to
ask. -/
def voteRpcUrl (env : VoteEnv) (network : NetworkId) : Except JsError Text :=
  let override := stripSlash (trim (env.qaVoteRpc.getD []))
  if override ≠ [] then .ok override
  else
    match network with
    | .testnet => .ok (hostedTestnetRpcFallbacks.getD 0 [])
    | .mainnet => getRpcBaseUrl env.rpc .mainnet

structure Vote where
  network : NetworkId
  voterHex : Text
  txHash : Text
  vote : Text
  signedTxHex : Option Text

def readSignedTxHex (v : Value) : Except Refusal (Option Text) :=
  match v with
  | .string s =>
    if trim s = [] then .ok none
    else
      match normalizeSignedTxHex s with
      | some hex => .ok (some hex)
      | none => .error (errorJson 400
        "signedTxHex must be even-length hex of a signed QaPoolVote.")
  | _ => .ok none

def readVote (env : VoteEnv) (body : Value) : Except Refusal Vote := do
  let network ← orRefuse (networkOf (body.get "network").asString?)
    (errorJson 400 "Invalid network")
  refuseIf (network = .mainnet && !isMainnetConfigured env.rpc)
    (errorJson 400 "Mainnet RPC is not configured.")
  let voterHex := normalizeVoterHex (stringField body "voterHex")
  refuseIf (!isAccountHex voterHex)
    (errorJson 400 "Voter must be a 32-byte account id (64 hex chars).")
  let txHash := normalizeHex64 (stringField body "txHash")
  refuseIf (txHash = []) (errorJson 400 "Invalid transaction hash.")
  let vote := toLowerCase (trim (stringField body "vote"))
  refuseIf (vote ∉ votes) (errorJson 400 "Vote must be allow, reject, or abstain.")
  let signedTxHex ← readSignedTxHex (body.get "signedTxHex")
  pure ⟨network, voterHex, txHash, vote, signedTxHex⟩

/-- A `fetch` of the handler. -/
structure VoteFetch where
  url : Text
  /-- The header `X-Boing-Operator`, which no browser sees. -/
  operator : Option Text
  body : Value

/-- An answer of the node; nothing when its body is no JSON. -/
structure NodeReply where
  status : ℕ
  json : Option Value

abbrev VoteFetch.Answer : VoteFetch → Type := fun _ => Except Thrown NodeReply

def voteFetch (env : VoteEnv) (url : Text) (v : Vote) : VoteFetch where
  url := Proxy.upstreamUrl url
  operator := (env.operatorToken.map trim).filter (· ≠ [])
  body := rpcRequest 1 "boing_qaPoolVote"
    (qaPoolVoteRpcParams v.txHash v.voterHex v.vote v.signedTxHex)

structure Reply where
  status : ℕ
  body : Value

/-- The response to a node's error: its code and data are kept. -/
def nodeErrorReply (error : Value) : Reply where
  status := 400
  body := .object
    [("error",
      if (error.get "message").truthy then error.get "message" else .string "QA pool vote failed"),
      ("code", error.get "code"), ("data", error.get "data")]

/-- What the handler makes of the node's answer. -/
def replyOf (v : Vote) : Except Thrown NodeReply → Except Thrown Reply
  | .error e =>
    .ok ⟨502, .object [("error", .string (if e.isError then e.message else "Vote RPC unreachable"))]⟩
  | .ok r =>
    match r.json with
    | none => .ok ⟨502, .object [("error", .string (("Vote RPC HTTP " : Text) ++ decimal r.status))]⟩
    | some data =>
      match errorOf data with
      | some error => .ok (nodeErrorReply error)
      | none =>
        if data.isNullish then .error (readNothing "error")
        else .ok ⟨200, .object [("ok", .bool true), ("result", (data.get "result").orElse (.object [])),
          ("rewardedPath", .bool (v.signedTxHex.any (· ≠ [])))]⟩

/-- `POST`, given what `await req.json()` reads; nothing when it throws. -/
def post (env : VoteEnv) (json : Option Value) : Async VoteFetch.Answer Thrown Reply :=
  match json with
  | none => pure ⟨400, .object [("error", .string "Invalid JSON body")]⟩
  | some body =>
    if body.isNullish then Async.ofExcept (.error (readNothing "network"))
    else
      match readVote env body with
      | .error r => pure ⟨r.status, r.body⟩
      | .ok v =>
        match voteRpcUrl env v.network with
        | .error e => Async.ofExcept (.error ⟨true, "Error", Proxy.messageOf e⟩)
        | .ok url => do
          let o ← Async.ask (voteFetch env url v)
          Async.ofExcept (replyOf v o)

/-! ## The page -/

structure PageResponse where
  status : ℕ
  json : Except Raised Value

def PageResponse.ok (res : PageResponse) : Bool := 200 ≤ res.status && res.status ≤ 299

/-- What a vote asks: whether there is a wallet, something of it, and a request to the handler,
whose body is what `JSON.stringify` is given. -/
inductive Ask
  | provider
  | request (method : Text) (params : List Value)
  | submit (body : Value)

abbrev Ask.Answer : Ask → Type
  | .provider => Bool
  | .request _ _ => Except Raised Value
  | .submit _ => Except Raised PageResponse

abbrev Page (α : Type) : Type := Async Ask.Answer Raised α

def provider : BoingInjectedProvider Ask.Answer where
  request method params := do
    let r ← Async.ask (.request method params)
    Async.ofExcept r

def voteBody (network : NetworkId) (voterHex txHash : Text) (vote : QaVoteKind)
    (signedTxHex : Option Text) : Value :=
  let fields : List (Text × Value) := [("network", .string network.text),
    ("voterHex", .string voterHex), ("txHash", .string txHash), ("vote", .string vote.text)]
  match signedTxHex with
  | none => .object fields
  | some signed => .object (fields ++ [(("signedTxHex" : Text), .string signed)])

def noteFromOutcome (outcome mempool : Value) (rewarded : Bool) : Text :=
  let pay : Text :=
    if rewarded then " Counted Allow/Reject votes earn treasury rewards when included."
    else " Treasury rewards are paid for signed votes."
  if outcome.asString? = some "allow" then
    (if mempool.truthy then ("Approved — deploy admitted to the mempool." : Text)
      else ("Approved." : Text)) ++ pay
  else if outcome.asString? = some "reject" then
    ("Rejected — this deploy will not be included in the chain." : Text) ++ pay
  else ("Vote recorded. Waiting for quorum." : Text) ++ pay

/-- `new BoingRpcCallError(message, { code, data, httpStatus, method })` -/
def voteError (nt : NumberText) (message : Value) (data : Value) (status : ℕ) : Raised where
  isError := true
  value := .object
    [("message", .string (match message with
      | .undefined => []
      | v => nt.stringOf v)),
      ("code", (data.get "code").orElse .null), ("data", data.get "data"),
      ("method", .string "boing_qaPoolVote"), ("httpStatus", .number (.ofNat status))]

def typeError (key : Text) : Raised := newError (readNothing key).message

/-- What a page makes of a response; `fallback` is its message for an error that has none. -/
def settleVote (nt : NumberText) (fallback : ℕ → Value) (rewarded : Bool) (res : PageResponse) :
    Except Raised Text := do
  let data ← res.json
  if !res.ok then
    if data.isNullish then throw (typeError "error")
    else
      let message := if (data.get "error").truthy then data.get "error" else fallback res.status
      throw (voteError nt message data res.status)
  else if data.isNullish then throw (typeError "result")
  else
    let result := data.get "result"
    pure (noteFromOutcome (result.get "outcome") (result.get "mempool") rewarded)

def voteFailed (status : ℕ) : Value :=
  .string (("Vote failed (" : Text) ++ decimal status ++ (")" : Text))

/-- A request to the handler, and what the page makes of its response. -/
def submitVote (nt : NumberText) (fallback : ℕ → Value) (rewarded : Bool) (body : Value) :
    Page Text := do
  let o ← Async.ask (.submit body)
  Async.ofExcept (o >>= settleVote nt fallback rewarded)

/-- An account in charge of the votes, from the wallet or typed. -/
structure Voter where
  voterHex : Text
  viaWallet : Bool

section

variable (nt : NumberText) (network : NetworkId) (voterHex txHash : Text) (vote : QaVoteKind)

/-- What follows a transaction that the wallet did not send. -/
def afterSend (tx : Value) (sendErr : Raised) : Page Text :=
  if isWalletUserRejected sendErr || isQaPoolVoteUnsupported nt sendErr then
    Async.ofExcept (.error sendErr)
  else do
    let signed ← walletSignTransaction provider tx
    submitVote nt
      (fun status => if sendErr.isError then sendErr.value.get "message" else voteFailed status)
      true (voteBody network voterHex txHash vote (some signed))

def submitSignedVoteViaWallet : Page Text := do
  ensureWalletChain provider network
  let tx ← Async.ofExcept (qaPoolVoteTxRequest txHash vote)
  match ← Async.attempt (walletSendTransaction provider tx) with
  | .ok hash =>
    pure (("Vote submitted (" : Text) ++ takeUnits 12 hash ++
      ("…). Counted Allow/Reject votes earn treasury rewards when included." : Text))
  | .error sendErr => afterSend nt network voterHex txHash vote tx sendErr

end

/-- The body of `cast`. -/
def castVote (nt : NumberText) (s : Voter) (network : NetworkId) (txHash : Text)
    (vote : QaVoteKind) : Page Text :=
  if s.viaWallet then do
    let found ← Async.ask .provider
    if found then submitSignedVoteViaWallet nt network s.voterHex txHash vote
    else Async.ofExcept (.error
      (newError "Boing Express is no longer available. Reconnect the wallet."))
  else submitVote nt voteFailed false (voteBody network s.voterHex txHash vote none)

def shown (nt : NumberText) (r : Except Raised Text) : Except Text Text :=
  r.mapError (mapWalletErrorToUi nt)

/-! ## The way to the node -/

/-- What becomes of a request to the handler. -/
inductive Passage
  /-- It fails in the network. -/
  | lost (e : Raised)
  /-- The edge answers it with an error of its own. -/
  | failed (res : PageResponse) (h : res.ok = false)
  /-- The handler answers it. -/
  | reached
  /-- The handler answers it, and its response is lost. -/
  | dropped (e : Raised)

/-- What is asked on the way: the wallet's part, and the request of the handler. -/
inductive Hop
  | provider
  | request (method : Text) (params : List Value)
  | pass (body : Value)
  | fetch (q : VoteFetch)

abbrev Hop.Answer : Hop → Type
  | .provider => Bool
  | .request _ _ => Except Raised Value
  | .pass _ => Passage
  | .fetch q => q.Answer

/-- The explorer: its environment, and what a page reads of a body that is no JSON. -/
structure Site where
  env : VoteEnv
  syntaxError : Raised

/-- What a page reads of the handler's end: the framework answers for one that throws. -/
def Site.read (site : Site) : Except Thrown Reply → PageResponse
  | .ok r => ⟨r.status, .ok r.body⟩
  | .error _ => ⟨500, .error site.syntaxError⟩

def Site.back (site : Site) (p : Passage) (r : Except Thrown Reply) : Except Raised PageResponse :=
  match p with
  | .lost e => .error e
  | .failed res _ => .ok res
  | .reached => .ok (site.read r)
  | .dropped e => .error e

def Site.handled (site : Site) (body : Value) : Prog Hop.Answer (Except Thrown Reply) :=
  (post site.env (some body)).run.handle fun q => Prog.query (Hop.fetch q)

/-- What a request ends with, by what becomes of it. -/
def Site.answer (site : Site) (body : Value) (p : Passage) :
    Prog Hop.Answer (Except Raised PageResponse) :=
  match p with
  | .lost e => pure (.error e)
  | .failed res _ => pure (.ok res)
  | p => do
    let r ← site.handled body
    pure (site.back p r)

def Site.serve (site : Site) : (a : Ask) → Prog Hop.Answer a.Answer
  | .provider => Prog.query Hop.provider
  | .request method params => Prog.query (Hop.request method params)
  | .submit body => Prog.query (Hop.pass body) >>= site.answer body

def fetches (asked : Trace Hop.Answer) : Trace VoteFetch.Answer :=
  asked.filterMap fun s =>
    match s with
    | ⟨.fetch q, o⟩ => some ⟨q, o⟩
    | _ => none

def walletMethods (asked : Trace Hop.Answer) : List Text :=
  asked.filterMap fun s =>
    match s with
    | ⟨.request method _, _⟩ => some method
    | _ => none

theorem fetches_append (t t' : Trace Hop.Answer) : fetches (t ++ t') = fetches t ++ fetches t' :=
  List.filterMap_append

theorem walletMethods_append (t t' : Trace Hop.Answer) :
    walletMethods (t ++ t') = walletMethods t ++ walletMethods t' :=
  List.filterMap_append

/-! ## One request to the handler -/

inductive Handled (env : VoteEnv) (body : Value) :
    Except Thrown Reply → Trace VoteFetch.Answer → Prop
  /-- It refuses the request. -/
  | refused {r : Except Thrown Reply} (h : ∀ reply, r = .ok reply → reply.status = 400) :
      Handled env body r []
  /-- It sends the vote. -/
  | sent {v : Vote} {url : Text} (hv : readVote env body = .ok v)
      (hurl : voteRpcUrl env v.network = .ok url) (o : Except Thrown NodeReply) :
      Handled env body (replyOf v o) [⟨voteFetch env url v, o⟩]

theorem readSignedTxHex_ok {v : Value} {signed : Option Text} (h : readSignedTxHex v = .ok signed) :
    (signed = none ∧ ∀ raw, v = .string raw → trim raw = []) ∨
      ∃ raw hex, v = .string raw ∧ normalizeSignedTxHex raw = some hex ∧ signed = some hex := by
  unfold readSignedTxHex at h
  split at h
  next raw =>
    split_ifs at h with hblank
    · refine .inl ⟨(Except.ok.inj h).symm, fun raw' hraw => ?_⟩
      obtain rfl := Value.string.inj hraw
      exact hblank
    · split at h
      next hex hhex => exact .inr ⟨raw, hex, rfl, hhex, (Except.ok.inj h).symm⟩
      next => cases h
  next hv => exact .inl ⟨(Except.ok.inj h).symm, fun raw hraw => absurd hraw (hv raw)⟩

theorem readVote_error {env : VoteEnv} {body : Value} {r : Refusal}
    (h : readVote env body = .error r) : r.status = 400 := by
  have hif : ∀ {b : Bool} {error : Text}, refuseIf b (errorJson 400 error) = .error r →
      r.status = 400 := by
    intro b error h
    cases b with
    | false => cases h
    | true =>
      obtain rfl := Except.error.inj h
      rfl
  rw [readVote] at h
  rcases bind_eq_error h with h | ⟨network, -, h⟩
  · cases hn : networkOf (body.get "network").asString? with
    | none =>
      rw [hn] at h
      obtain rfl := Except.error.inj h
      rfl
    | some n =>
      rw [hn] at h
      cases h
  rcases bind_eq_error h with h | ⟨_, -, h⟩
  · exact hif h
  rcases bind_eq_error h with h | ⟨_, -, h⟩
  · exact hif h
  rcases bind_eq_error h with h | ⟨_, -, h⟩
  · exact hif h
  rcases bind_eq_error h with h | ⟨_, -, h⟩
  · exact hif h
  rcases bind_eq_error h with h | ⟨_, -, h⟩
  · unfold readSignedTxHex at h
    split at h
    · split at h
      · cases h
      · split at h
        · cases h
        · obtain rfl := Except.error.inj h
          rfl
    · cases h
  · cases h

/-- What a checked vote is read from. -/
theorem readVote_ok {env : VoteEnv} {body : Value} {v : Vote} (h : readVote env body = .ok v) :
    networkOf (body.get "network").asString? = some v.network ∧
      v.voterHex = normalizeVoterHex (stringField body "voterHex") ∧ isAccountHex v.voterHex = true ∧
      v.txHash = normalizeHex64 (stringField body "txHash") ∧ v.txHash ≠ [] ∧
      v.vote = toLowerCase (trim (stringField body "vote")) ∧ v.vote ∈ votes ∧
      readSignedTxHex (body.get "signedTxHex") = .ok v.signedTxHex := by
  rw [readVote] at h
  obtain ⟨network, hnetwork, h⟩ := bind_eq_ok h
  obtain ⟨_, -, h⟩ := bind_eq_ok h
  obtain ⟨_, hvoter, h⟩ := bind_eq_ok h
  obtain ⟨_, htx, h⟩ := bind_eq_ok h
  obtain ⟨_, hvote, h⟩ := bind_eq_ok h
  obtain ⟨signed, hsigned, h⟩ := bind_eq_ok h
  obtain rfl := Except.ok.inj h
  exact ⟨orRefuse_eq_ok hnetwork, rfl, by simpa using refuseIf_eq_ok hvoter, rfl,
    by simpa using refuseIf_eq_ok htx, rfl, by simpa using refuseIf_eq_ok hvote, hsigned⟩

/-- **The handler's run**: a refusal, or one request. -/
theorem exec_post (env : VoteEnv) (body : Value) (e : Env VoteFetch.Answer)
    (tr : Trace VoteFetch.Answer) :
    ∃ r asked, Async.exec e (post env (some body)) tr = (r, tr ++ asked) ∧
      Handled env body r asked := by
  unfold post
  dsimp only
  split
  · exact ⟨_, [], by rw [List.append_nil]; rfl, .refused fun _ h => by cases h⟩
  · cases hv : readVote env body with
    | error r =>
      refine ⟨.ok ⟨r.status, r.body⟩, [], by rw [List.append_nil]; rfl, .refused fun reply h => ?_⟩
      obtain rfl := Except.ok.inj h
      exact readVote_error hv
    | ok v =>
      dsimp only
      cases hurl : voteRpcUrl env v.network with
      | error x => exact ⟨_, [], by rw [List.append_nil]; rfl, .refused fun _ h => by cases h⟩
      | ok url =>
        refine ⟨_, _, ?_, .sent hv hurl (e tr (voteFetch env url v))⟩
        dsimp only
        rw [Async.exec_bind, Async.exec_ask]
        rfl

inductive Submitted (site : Site) (body : Value) :
    Except Raised PageResponse → Trace Hop.Answer → Prop
  /-- No vote is sent. -/
  | unsent {o : Except Raised PageResponse} (p : Passage)
      (h : ∀ res, o = .ok res → res.ok = false) : Submitted site body o [⟨.pass body, p⟩]
  /-- The handler sends the vote. -/
  | sent {v : Vote} {url : Text} (hv : readVote site.env body = .ok v)
      (hurl : voteRpcUrl site.env v.network = .ok url) (u : Except Thrown NodeReply) (p : Passage)
      (hp : p = .reached ∨ ∃ e, p = .dropped e) :
      Submitted site body (site.back p (replyOf v u))
        [⟨.pass body, p⟩, ⟨.fetch (voteFetch site.env url v), u⟩]

section

variable {site : Site} {env : Env Hop.Answer} {tr : Trace Hop.Answer}

theorem run_handled (site : Site) (body : Value) (env : Env Hop.Answer) (tr : Trace Hop.Answer) :
    ∃ r asked, (site.handled body).run env tr =
        (r, tr ++ asked.map (Prog.rename (B := Hop.Answer) Hop.fetch)) ∧
      Handled site.env body r asked := by
  have hembed := Prog.run_embed (B := Hop.Answer) Hop.fetch (post site.env (some body)).run env tr []
  rw [List.map_nil, List.append_nil] at hembed
  obtain ⟨r, asked, hexec, hhandled⟩ := exec_post site.env body
    (fun t q => env (tr ++ t.map (Prog.rename Hop.fetch)) (Hop.fetch q)) []
  have hfst : (post site.env (some body)).run.run
      (fun t q => env (tr ++ t.map (Prog.rename Hop.fetch)) (Hop.fetch q)) [] = (r, asked) := hexec
  rw [hfst] at hembed
  exact ⟨r, asked, hembed, hhandled⟩

/-- What the handler's run makes of a request that reaches it. -/
theorem submitted_of_handled {body : Value} {r : Except Thrown Reply}
    {asked : Trace VoteFetch.Answer} (h : Handled site.env body r asked) {p : Passage}
    (hp : p = .reached ∨ ∃ e, p = .dropped e) :
    Submitted site body (site.back p r)
      (⟨.pass body, p⟩ :: asked.map (Prog.rename (B := Hop.Answer) Hop.fetch)) := by
  cases h with
  | sent hv hurl u => exact .sent hv hurl u p hp
  | refused hr =>
    refine .unsent p fun res hres => ?_
    rcases hp with rfl | ⟨e, rfl⟩
    · obtain rfl := Except.ok.inj hres
      cases r with
      | error x => rfl
      | ok reply =>
        change (decide (200 ≤ reply.status) && decide (reply.status ≤ 299)) = false
        rw [hr reply rfl]
        rfl
    · cases hres

/-- **One request to the handler.** -/
theorem exec_submit (body : Value) :
    ∃ o asked, Async.exec env (Async.handle (ε := Raised) site.serve (Async.ask (.submit body))) tr =
        (.ok o, tr ++ asked) ∧ Submitted site body o asked := by
  rw [Async.exec_handle_ask]
  set p : Passage := env tr (.pass body) with hp
  have hrun : (site.serve (.submit body)).run env tr =
      (site.answer body p).run env (tr ++ [⟨.pass body, p⟩]) := rfl
  rw [hrun]
  have hreach : ∀ {q : Passage}, (q = .reached ∨ ∃ e, q = .dropped e) →
      ((do let r ← site.handled body; pure (site.back q r) : Prog Hop.Answer _)).run env
        (tr ++ [⟨.pass body, q⟩]) = (site.answer body q).run env (tr ++ [⟨.pass body, q⟩]) := by
    rintro q (rfl | ⟨e, rfl⟩) <;> rfl
  have hend : ∀ {q : Passage}, (q = .reached ∨ ∃ e, q = .dropped e) →
      ∃ o asked, (Except.ok ((site.answer body q).run env (tr ++ [⟨.pass body, q⟩])).1,
          ((site.answer body q).run env (tr ++ [⟨.pass body, q⟩])).2) =
        ((.ok o : Except Raised _), tr ++ asked) ∧ Submitted site body o asked := by
    intro q hq
    obtain ⟨r, asked, hhandled, hasked⟩ := run_handled site body env (tr ++ [⟨.pass body, q⟩])
    rw [← hreach hq, Prog.run_bind, hhandled]
    exact ⟨_, _, by rw [List.append_assoc]; rfl, submitted_of_handled hasked hq⟩
  cases p with
  | lost e => exact ⟨_, _, rfl, .unsent _ fun res hres => by cases hres⟩
  | failed res h =>
    refine ⟨_, _, rfl, .unsent _ fun res' hres => ?_⟩
    obtain rfl := Except.ok.inj hres
    exact h
  | reached => exact hend (.inl rfl)
  | dropped e => exact hend (.inr ⟨e, rfl⟩)

/-! ## The wallet -/

/-- **One request to the wallet**, and what is read of its answer. -/
theorem exec_wallet {α : Type} (method : Text) (params : List Value) (read : Value → Except Raised α) :
    Async.exec env (Async.handle site.serve (do
      let a ← provider.request method params
      Async.ofExcept (read a))) tr =
      (env tr (.request method params) >>= read,
        tr ++ [⟨.request method params, env tr (.request method params)⟩]) := by
  have hrun : (site.serve (.request method params)).run env tr =
      (env tr (.request method params),
        tr ++ [⟨.request method params, env tr (.request method params)⟩]) := rfl
  rw [provider, Async.handle_bind, Async.exec_bind, Async.handle_bind, Async.exec_bind,
    Async.exec_handle_ask, hrun]
  dsimp only
  cases env tr (.request method params) with
  | error e => rfl
  | ok a => rfl

/-- What a vote may ask of the wallet, in order. -/
def walletOrder : List Text :=
  ["boing_chainId", "boing_switchChain", "boing_sendTransaction", "boing_signTransaction"]

theorem exec_ensureWalletChain (network : NetworkId) :
    ∃ r asked, Async.exec env (Async.handle site.serve (ensureWalletChain provider network)) tr =
        (r, tr ++ asked) ∧ fetches asked = [] ∧
      (walletMethods asked).Sublist ["boing_chainId", "boing_switchChain"] := by
  rw [ensureWalletChain, Async.handle_bind, Async.exec_bind, walletChainIdHex, exec_wallet]
  cases env tr (.request "boing_chainId" []) >>= readChainId with
  | error e =>
    exact ⟨_, _, rfl, rfl, List.Sublist.cons_cons _ (List.nil_sublist _)⟩
  | ok chain =>
    dsimp only
    split
    · exact ⟨_, _, rfl, rfl, List.Sublist.cons_cons _ (List.nil_sublist _)⟩
    · refine ⟨_, _, (exec_wallet "boing_switchChain"
        [.object [("chainId", .string (toLowerCase (chainIdHexForNetwork network)))]]
        fun _ => .ok ()).trans (Prod.ext rfl (List.append_assoc _ _ _)), rfl, List.Sublist.refl _⟩

/-! ## A whole vote -/

structure Vote.IsFor (v : Vote) (network : NetworkId) (voterHex txHash : Text)
    (vote : QaVoteKind) : Prop where
  network : v.network = network
  voter : v.voterHex = normalizeVoterHex voterHex ∧ isAccountHex v.voterHex = true
  subject : v.txHash = normalizeHex64 txHash ∧ isAccountHex v.txHash = true
  vote : v.vote = vote.text

/-- The wallet signed the vote, after it did not send it for a reason that is not the user's. -/
def SignedAfter (nt : NumberText) (txHash : Text) (vote : QaVoteKind) (asked : Trace Hop.Answer)
    (raw : Text) : Prop :=
  ∃ tx answer sendErr, qaPoolVoteTxRequest txHash vote = .ok tx ∧
    (⟨.request "boing_sendTransaction" [tx], answer⟩ : Σ q, Hop.Answer q) ∈ asked ∧
    (answer >>= textOf "Wallet did not return a transaction hash.") = .error sendErr ∧
    isWalletUserRejected sendErr = false ∧ isQaPoolVoteUnsupported nt sendErr = false ∧
    (⟨.request "boing_signTransaction" [tx], .ok (.string raw)⟩ : Σ q, Hop.Answer q) ∈ asked

structure Casts (site : Site) (nt : NumberText) (s : Voter) (network : NetworkId) (txHash : Text)
    (vote : QaVoteKind) (r : Except Raised Text) (asked : Trace Hop.Answer) : Prop where
  /-- Nothing is asked of the wallet twice. -/
  order : (walletMethods asked).Sublist walletOrder
  unsigned : s.viaWallet = false → walletMethods asked = []
  once : (fetches asked).length ≤ 1
  /-- The node gets this vote, signed by the wallet or by nobody. -/
  sent : ∀ x ∈ fetches asked, ∃ v url, voteRpcUrl site.env network = .ok url ∧
    x.1 = voteFetch site.env url v ∧ v.IsFor network s.voterHex txHash vote ∧
    (s.viaWallet = false → v.signedTxHex = none) ∧
    (s.viaWallet = true → ∃ raw hex, SignedAfter nt txHash vote asked raw ∧
      normalizeSignedTxHex raw = some hex ∧ v.signedTxHex = some hex)
  /-- A vote that is said to be in was sent by the wallet, or the node answered without an error. -/
  counted : ∀ note, r = .ok note →
    (∃ tx hash, (⟨.request "boing_sendTransaction" [tx], .ok (.string hash)⟩ :
      Σ q, Hop.Answer q) ∈ asked ∧ trim hash ≠ []) ∨
    ∃ x ∈ fetches asked, ∃ reply data, x.2 = .ok reply ∧ reply.json = some data ∧
      errorOf data = none
  /-- The node's error reaches the page, and its explanation the user, unless it reads as an answer
  of the wallet's user. -/
  explained : ∀ x ∈ fetches asked, ∀ reply data error, x.2 = .ok reply → reply.json = some data →
    errorOf data = some error →
      (∀ body e, (⟨.pass body, .dropped e⟩ : Σ q, Hop.Answer q) ∉ asked) →
        ∃ err, r = .error err ∧
          describeRpcRejection nt err.value = describeRpcRejection nt error ∧
            ∀ text, describeRpcRejection nt error = some text → isWalletUserRejected err = false →
              isQaPoolVoteUnsupported nt err = false → shown nt r = .error text

/-- The handler reads the vote that was cast. -/
theorem isFor_of_readVote {env : VoteEnv} {network : NetworkId} {voterHex txHash : Text}
    {vote : QaVoteKind} {signed : Option Text} {v : Vote}
    (h : readVote env (voteBody network voterHex txHash vote signed) = .ok v) :
    v.IsFor network voterHex txHash vote ∧
      readSignedTxHex ((signed.map Value.string).getD .undefined) = .ok v.signedTxHex := by
  obtain ⟨hnetwork, hvoter, haccount, htx, hne, hvote, -, hsigned⟩ := readVote_ok h
  have hfields : (voteBody network voterHex txHash vote signed).get "network" =
        .string network.text ∧
      stringField (voteBody network voterHex txHash vote signed) "voterHex" = voterHex ∧
      stringField (voteBody network voterHex txHash vote signed) "txHash" = txHash ∧
      stringField (voteBody network voterHex txHash vote signed) "vote" = vote.text ∧
      (voteBody network voterHex txHash vote signed).get "signedTxHex" =
        (signed.map Value.string).getD .undefined := by
    cases signed <;> exact ⟨rfl, rfl, rfl, rfl, rfl⟩
  obtain ⟨hn, hv, ht, hk, hs⟩ := hfields
  rw [hn] at hnetwork
  rw [hv] at hvoter
  rw [ht] at htx
  rw [hk] at hvote
  rw [hs] at hsigned
  have hname : networkOf (Value.string network.text).asString? = some network := by
    cases network <;> rfl
  have hkind : toLowerCase (trim vote.text) = vote.text := by
    cases vote <;> decide
  refine ⟨⟨Option.some.inj (hnetwork.symm.trans hname), ⟨hvoter, haccount⟩, ⟨htx, ?_⟩,
    hvote.trans hkind⟩, hsigned⟩
  rw [htx] at hne ⊢
  exact isAccountHex_iff.mpr (isHex_normalizeHex64 hne)

theorem describe_congr {nt : NumberText} {x y : Value} {fx fy : List (Text × Value)}
    (hx : x = .object fx) (hy : y = .object fy)
    (hcode : asNumber? (x.get "code") = asNumber? (y.get "code"))
    (hdata : x.get "data" = y.get "data") :
    describeRpcRejection nt x = describeRpcRejection nt y := by
  cases hrpc : (y.get "data").get "rpc" with
  | object inner =>
    rw [describe_nested hx ((congrArg (Value.get · "rpc") hdata).trans hrpc),
      describe_nested hy hrpc, hcode]
  | _ =>
    rw [describeRpcRejection_object hx (by rw [hdata, hrpc]; rfl),
      describeRpcRejection_object hy (by rw [hrpc]; rfl), hcode, hdata]

/-- **A node's error** is explained on the page as it is by itself. -/
theorem describe_voteError (nt : NumberText) (message error : Value) (status : ℕ) :
    describeRpcRejection nt (voteError nt message (nodeErrorReply error).body status).value =
      describeRpcRejection nt error := by
  have hcode : ∀ c : Value, asNumber? (c.orElse .null) = asNumber? c := by
    intro c
    cases c <;> rfl
  cases error with
  | object fields => exact describe_congr rfl rfl (hcode _) rfl
  | _ => rfl

theorem settleVote_ok {nt : NumberText} {fallback : ℕ → Value} {rewarded : Bool}
    {res : PageResponse} {note : Text} (h : settleVote nt fallback rewarded res = .ok note) :
    res.ok = true := by
  obtain ⟨data, -, h⟩ := bind_eq_ok h
  split at h
  · split at h <;> cases h
  next hok => simpa using hok

theorem settleVote_nodeError (nt : NumberText) (fallback : ℕ → Value) (rewarded : Bool)
    (error : Value) : ∃ message,
      settleVote nt fallback rewarded ⟨400, .ok (nodeErrorReply error).body⟩ =
        .error (voteError nt message (nodeErrorReply error).body 400) :=
  ⟨_, rfl⟩

theorem SignedAfter.mono {nt : NumberText} {txHash raw : Text} {vote : QaVoteKind}
    {asked more : Trace Hop.Answer} (h : SignedAfter nt txHash vote asked raw)
    (hmore : asked ⊆ more) : SignedAfter nt txHash vote more raw := by
  obtain ⟨tx, answer, sendErr, htx, hsend, herr, hown, hsupported, hsign⟩ := h
  exact ⟨tx, answer, sendErr, htx, hmore hsend, herr, hown, hsupported, hmore hsign⟩

theorem sublist_walletOrder {methods : List Text}
    (h : methods.Sublist ["boing_chainId", "boing_switchChain", "boing_sendTransaction"]) :
    methods.Sublist walletOrder :=
  h.trans (List.sublist_append_left
    (["boing_chainId", "boing_switchChain", "boing_sendTransaction"] : List Text)
    ["boing_signTransaction"])

variable {nt : NumberText} {s : Voter} {network : NetworkId} {txHash : Text} {vote : QaVoteKind}

theorem casts_unsent {r : Except Raised Text} {asked : Trace Hop.Answer}
    (hfetches : fetches asked = []) (horder : (walletMethods asked).Sublist walletOrder)
    (hunsigned : s.viaWallet = false → walletMethods asked = [])
    (hcounted : ∀ note, r = .ok note → ∃ tx hash,
      (⟨.request "boing_sendTransaction" [tx], .ok (.string hash)⟩ : Σ q, Hop.Answer q) ∈ asked ∧
        trim hash ≠ []) : Casts site nt s network txHash vote r asked where
  order := horder
  unsigned := hunsigned
  once := by
    rw [hfetches]
    exact Nat.zero_le 1
  sent x hx := by
    rw [hfetches] at hx
    cases hx
  counted note h := .inl (hcounted note h)
  explained x hx := by
    rw [hfetches] at hx
    cases hx

/-- The vote that the handler reads is the one cast, signed by the wallet or by nobody. -/
theorem sent_of_readVote {before asked : Trace Hop.Answer} {signed : Option Text} {v : Vote}
    (hunsigned : s.viaWallet = false → signed = none)
    (hsigned : s.viaWallet = true → ∃ raw, signed = some raw ∧ trim raw ≠ [] ∧
      SignedAfter nt txHash vote before raw)
    (hv : readVote site.env (voteBody network s.voterHex txHash vote signed) = .ok v) :
    v.IsFor network s.voterHex txHash vote ∧ (s.viaWallet = false → v.signedTxHex = none) ∧
      (s.viaWallet = true → ∃ raw hex, SignedAfter nt txHash vote (before ++ asked) raw ∧
        normalizeSignedTxHex raw = some hex ∧ v.signedTxHex = some hex) := by
  obtain ⟨hfor, hread⟩ := isFor_of_readVote hv
  refine ⟨hfor, fun hvia => ?_, fun hvia => ?_⟩
  · obtain rfl := hunsigned hvia
    exact (Except.ok.inj hread).symm
  · obtain ⟨raw, rfl, hblank, hafter⟩ := hsigned hvia
    rcases readSignedTxHex_ok hread with ⟨-, hnot⟩ | ⟨raw', hex, hraw, hhex, hval⟩
    · exact absurd (hnot raw rfl) hblank
    · obtain rfl := Value.string.inj hraw
      exact ⟨raw, hex, hafter.mono (List.subset_append_left _ _), hhex, hval⟩

/-- A response that is well comes from an answer of the node without an error. -/
theorem answered_of_ok {v : Vote} {u : Except Thrown NodeReply} {p : Passage}
    (hp : p = .reached ∨ ∃ e, p = .dropped e) {res : PageResponse}
    (hres : site.back p (replyOf v u) = .ok res) (hwell : res.ok = true) :
    ∃ reply data, u = .ok reply ∧ reply.json = some data ∧ errorOf data = none := by
  rcases hp with rfl | ⟨e, rfl⟩
  · obtain rfl := Except.ok.inj hres
    cases u with
    | error e => cases hwell
    | ok reply =>
      rw [replyOf] at hwell
      cases hjson : reply.json with
      | none =>
        rw [hjson] at hwell
        cases hwell
      | some data =>
        rw [hjson] at hwell
        cases herror : errorOf data with
        | none => exact ⟨reply, data, rfl, hjson, herror⟩
        | some error =>
          dsimp only at hwell
          rw [herror] at hwell
          cases hwell
  · cases hres

/-- **A node's error** that gets back to the page, as the user reads it. -/
theorem explained_of_reached {v : Vote} {reply : NodeReply} {data error : Value}
    (hjson : reply.json = some data) (herror : errorOf data = some error) (fallback : ℕ → Value)
    (rewarded : Bool) :
    ∃ err, (site.back .reached (replyOf v (.ok reply)) >>= settleVote nt fallback rewarded) =
        .error err ∧ describeRpcRejection nt err.value = describeRpcRejection nt error ∧
      ∀ text, describeRpcRejection nt error = some text → isWalletUserRejected err = false →
        isQaPoolVoteUnsupported nt err = false →
          shown nt (site.back .reached (replyOf v (.ok reply)) >>= settleVote nt fallback rewarded) =
            .error text := by
  obtain ⟨message, hsettle⟩ := settleVote_nodeError nt fallback rewarded error
  have hend : (site.back .reached (replyOf v (.ok reply)) >>= settleVote nt fallback rewarded) =
      .error (voteError nt message (nodeErrorReply error).body 400) := by
    rw [← hsettle]
    change settleVote nt fallback rewarded (site.read (replyOf v (.ok reply))) = _
    rw [replyOf, hjson]
    dsimp only
    rw [herror]
    rfl
  have hsame := describe_voteError nt message error 400
  refine ⟨_, hend, hsame, fun text htext hown hsupported => ?_⟩
  rw [hend]
  exact congrArg Except.error (mapWalletErrorToUi_of_describe hown hsupported (hsame.trans htext))

/-- **A vote with a request to the handler.** -/
theorem casts_submitted {o : Except Raised PageResponse} {before asked : Trace Hop.Answer}
    {signed : Option Text} {fallback : ℕ → Value} {rewarded : Bool}
    (hfetches : fetches before = []) (horder : (walletMethods before).Sublist walletOrder)
    (hunsigned : s.viaWallet = false → walletMethods before = [] ∧ signed = none)
    (hsigned : s.viaWallet = true → ∃ raw, signed = some raw ∧ trim raw ≠ [] ∧
      SignedAfter nt txHash vote before raw)
    (h : Submitted site (voteBody network s.voterHex txHash vote signed) o asked) :
    Casts site nt s network txHash vote (o >>= settleVote nt fallback rewarded)
      (before ++ asked) := by
  have hmethods : walletMethods (before ++ asked) = walletMethods before := by
    rw [walletMethods_append]
    cases h <;> exact List.append_nil _
  have hok : ∀ note, (o >>= settleVote nt fallback rewarded) = .ok note →
      ∃ res, o = .ok res ∧ res.ok = true := by
    intro note hnote
    obtain ⟨res, ho, hsettle⟩ := bind_eq_ok hnote
    exact ⟨res, ho, settleVote_ok hsettle⟩
  cases h with
  | unsent p hbad =>
    have hnone : fetches (before ++
        [⟨.pass (voteBody network s.voterHex txHash vote signed), p⟩]) = [] := by
      rw [fetches_append, hfetches]
      rfl
    refine casts_unsent hnone (hmethods ▸ horder) (fun hvia => hmethods.trans (hunsigned hvia).1) ?_
    intro note hnote
    obtain ⟨res, ho, hres⟩ := hok note hnote
    rw [hbad res ho] at hres
    cases hres
  | @sent v url hv hurl u p hp =>
    have hone : fetches (before ++ [⟨.pass (voteBody network s.voterHex txHash vote signed), p⟩,
        ⟨.fetch (voteFetch site.env url v), u⟩]) = [⟨voteFetch site.env url v, u⟩] := by
      rw [fetches_append, hfetches]
      rfl
    refine ⟨hmethods ▸ horder, fun hvia => hmethods.trans (hunsigned hvia).1, ?_, ?_, ?_, ?_⟩
    · rw [hone]
      exact le_rfl
    · intro x hx
      rw [hone] at hx
      obtain rfl := List.mem_singleton.mp hx
      obtain ⟨hfor, hvote⟩ := sent_of_readVote (fun hvia => (hunsigned hvia).2) hsigned hv
      exact ⟨v, url, hfor.network ▸ hurl, rfl, hfor, hvote⟩
    · intro note hnote
      obtain ⟨res, hres, hwell⟩ := hok note hnote
      obtain ⟨reply, data, hu, hjson, herror⟩ := answered_of_ok hp hres hwell
      exact .inr ⟨⟨voteFetch site.env url v, u⟩, hone ▸ List.mem_singleton_self _, reply, data, hu,
        hjson, herror⟩
    · intro x hx reply data error hreply hjson herror hdropped
      rw [hone] at hx
      obtain rfl := List.mem_singleton.mp hx
      obtain rfl : u = .ok reply := hreply
      rcases hp with rfl | ⟨e, rfl⟩
      · exact explained_of_reached hjson herror fallback rewarded
      · exact absurd (List.mem_append_right _ (List.mem_cons_self ..)) (hdropped _ e)

theorem exec_submitVote (fallback : ℕ → Value) (rewarded : Bool) (body : Value) :
    ∃ o asked, Async.exec env (Async.handle site.serve (submitVote nt fallback rewarded body)) tr =
        (o >>= settleVote nt fallback rewarded, tr ++ asked) ∧ Submitted site body o asked := by
  obtain ⟨o, asked, hexec, hsub⟩ := @exec_submit site env tr body
  refine ⟨o, asked, ?_, hsub⟩
  rw [submitVote, Async.handle_bind, Async.exec_bind, hexec]
  rfl

theorem textOf_ok {answer : Except Raised Value} {message text : Text}
    (h : (answer >>= textOf message) = .ok text) : answer = .ok (.string text) ∧ trim text ≠ [] := by
  obtain ⟨v, rfl, hv⟩ := bind_eq_ok h
  clear h
  unfold textOf at hv
  split at hv
  next t =>
    split_ifs at hv with hblank
    obtain rfl := Except.ok.inj hv
    exact ⟨rfl, hblank⟩
  next => cases hv

/-- **After a transaction that the wallet did not send.** -/
theorem casts_afterSend (hvia : s.viaWallet = true) {before : Trace Hop.Answer} {tx : Value}
    {answer : Except Raised Value} {sendErr : Raised} (hfetches : fetches before = [])
    (horder : (walletMethods before).Sublist
      ["boing_chainId", "boing_switchChain", "boing_sendTransaction"])
    (htx : qaPoolVoteTxRequest txHash vote = .ok tx)
    (hsend : (⟨.request "boing_sendTransaction" [tx], answer⟩ : Σ q, Hop.Answer q) ∈ before)
    (herr : (answer >>= textOf "Wallet did not return a transaction hash.") = .error sendErr) :
    ∃ r asked, Async.exec env (Async.handle site.serve
        (afterSend nt network s.voterHex txHash vote tx sendErr)) (tr ++ before) =
          (r, tr ++ asked) ∧ Casts site nt s network txHash vote r asked := by
  have hunsigned {p : Prop} (h : s.viaWallet = false) : p := by
    rw [hvia] at h
    cases h
  have hlast : walletOrder = ["boing_chainId", "boing_switchChain", "boing_sendTransaction"] ++
      ["boing_signTransaction"] := rfl
  rw [afterSend]
  cases hstop : isWalletUserRejected sendErr || isQaPoolVoteUnsupported nt sendErr with
  | true =>
    exact ⟨_, before, rfl, casts_unsent hfetches
      (sublist_walletOrder horder) hunsigned fun _ h => by cases h⟩
  | false =>
    obtain ⟨hown, hsupported⟩ := Bool.or_eq_false_iff.mp hstop
    rw [if_neg Bool.false_ne_true, Async.handle_bind, Async.exec_bind, walletSignTransaction,
      exec_wallet]
    set sign : Except Raised Value := env (tr ++ before) (.request "boing_signTransaction" [tx])
      with hsign
    set step : Trace Hop.Answer := before ++ [⟨.request "boing_signTransaction" [tx], sign⟩]
      with hstep
    have hnone : fetches step = [] := by
      rw [hstep, fetches_append, hfetches]
      rfl
    have hmethods : (walletMethods step).Sublist walletOrder := by
      rw [hstep, walletMethods_append, hlast]
      exact horder.append (List.Sublist.refl _)
    rw [List.append_assoc, ← hstep]
    cases hread : sign >>= textOf "Wallet did not return a signed transaction." with
    | error e =>
      exact ⟨_, step, rfl, casts_unsent hnone hmethods hunsigned fun _ h => by cases h⟩
    | ok raw =>
      obtain ⟨hraw, hblank⟩ := textOf_ok hread
      dsimp only
      obtain ⟨o, asked, hexec, hsub⟩ := @exec_submitVote site env (tr ++ step) nt
        (fun status => if sendErr.isError then sendErr.value.get "message" else voteFailed status)
        true (voteBody network s.voterHex txHash vote (some raw))
      refine ⟨_, step ++ asked, hexec.trans (Prod.ext rfl (List.append_assoc _ _ _)),
        casts_submitted hnone hmethods hunsigned (fun _ => ⟨raw, rfl, hblank, ?_⟩) hsub⟩
      exact ⟨tx, answer, sendErr, htx, List.mem_append_left _ hsend, herr, hown, hsupported,
        List.mem_append_right _ (hraw ▸ List.mem_singleton_self _)⟩

/-- **A vote through the wallet.** -/
theorem casts_signed (hvia : s.viaWallet = true) :
    ∃ r asked, Async.exec env (Async.handle site.serve
        (submitSignedVoteViaWallet nt network s.voterHex txHash vote)) tr = (r, tr ++ asked) ∧
      Casts site nt s network txHash vote r asked := by
  have hunsigned {p : Prop} (h : s.viaWallet = false) : p := by
    rw [hvia] at h
    cases h
  obtain ⟨r, chain, hexec, hfetches, horder⟩ := @exec_ensureWalletChain site env tr network
  have hprefix : (walletMethods chain).Sublist walletOrder :=
    sublist_walletOrder (horder.trans (List.sublist_append_left
      (["boing_chainId", "boing_switchChain"] : List Text) ["boing_sendTransaction"]))
  rw [submitSignedVoteViaWallet, Async.handle_bind, Async.exec_bind, hexec]
  cases r with
  | error e =>
    exact ⟨_, chain, rfl, casts_unsent hfetches hprefix hunsigned fun _ h => by cases h⟩
  | ok _ =>
    dsimp only
    rw [Async.handle_bind, Async.exec_bind, Async.handle_ofExcept]
    cases htx : qaPoolVoteTxRequest txHash vote with
    | error e =>
      exact ⟨_, chain, rfl, casts_unsent hfetches hprefix hunsigned fun _ h => by cases h⟩
    | ok tx =>
      have hpure : Async.exec env (Async.ofExcept (.ok tx) : Async Hop.Answer Raised Value)
          (tr ++ chain) = (.ok tx, tr ++ chain) := rfl
      rw [hpure]
      dsimp only
      rw [Async.handle_bind, Async.exec_bind, Async.handle_attempt, Async.exec_attempt,
        walletSendTransaction, exec_wallet]
      dsimp only
      set answer : Except Raised Value := env (tr ++ chain) (.request "boing_sendTransaction" [tx])
        with hanswer
      rw [List.append_assoc]
      set before : Trace Hop.Answer := chain ++ [⟨.request "boing_sendTransaction" [tx], answer⟩]
        with hbefore
      have hnone : fetches before = [] := by
        rw [hbefore, fetches_append, hfetches]
        rfl
      have hmethods : (walletMethods before).Sublist
          ["boing_chainId", "boing_switchChain", "boing_sendTransaction"] := by
        rw [hbefore, walletMethods_append]
        exact horder.append (List.Sublist.refl _)
      have hmem : (⟨.request "boing_sendTransaction" [tx], answer⟩ : Σ q, Hop.Answer q) ∈ before :=
        List.mem_append_right _ (List.mem_singleton_self _)
      cases hsend : answer >>= textOf "Wallet did not return a transaction hash." with
      | error sendErr => exact casts_afterSend hvia hnone hmethods htx hmem hsend
      | ok hash =>
        obtain ⟨hok, hblank⟩ := textOf_ok hsend
        exact ⟨_, before, rfl, casts_unsent hnone (sublist_walletOrder hmethods) hunsigned
          fun _ _ => ⟨tx, hash, hok ▸ hmem, hblank⟩⟩

/-- The search for a wallet asks nothing of it. -/
theorem Casts.cons_provider {r : Except Raised Text} {asked : Trace Hop.Answer}
    (h : Casts site nt s network txHash vote r asked) (found : Bool) :
    Casts site nt s network txHash vote r (⟨.provider, found⟩ :: asked) where
  order := h.order
  unsigned := h.unsigned
  once := h.once
  sent x hx := by
    obtain ⟨v, url, hurl, hsent, hfor, hnone, hsigned⟩ := h.sent x hx
    refine ⟨v, url, hurl, hsent, hfor, hnone, fun hvia => ?_⟩
    obtain ⟨raw, hex, hafter, hhex, hval⟩ := hsigned hvia
    exact ⟨raw, hex, hafter.mono (List.subset_cons_self _ _), hhex, hval⟩
  counted note hnote := by
    rcases h.counted note hnote with ⟨tx, hash, hmem, hblank⟩ | hanswered
    · exact .inl ⟨tx, hash, List.mem_cons_of_mem _ hmem, hblank⟩
    · exact .inr hanswered
  explained x hx reply data error hreply hjson herror hdropped :=
    h.explained x hx reply data error hreply hjson herror fun body e hmem =>
      hdropped body e (List.mem_cons_of_mem _ hmem)

/-- **A vote.**  Whatever the wallet, the network and the node do: the wallet is asked for nothing
twice, and the node gets one request at most.  It has this vote: unsigned when the account was typed,
and signed by the wallet otherwise, which refused to send it first.  A vote that is said to be in
was sent by the wallet, or answered by the node without an error, and the node's error is explained
to the user as it is by itself, unless it reads as the user's own refusal or an unsupported vote. -/
theorem cast_exact (site : Site) (nt : NumberText) (s : Voter) (network : NetworkId) (txHash : Text)
    (vote : QaVoteKind) (env : Env Hop.Answer) (tr : Trace Hop.Answer) :
    ∃ r asked, Async.exec env (Async.handle site.serve (castVote nt s network txHash vote)) tr =
        (r, tr ++ asked) ∧ Casts site nt s network txHash vote r asked := by
  cases hvia : s.viaWallet with
  | true =>
    have hrun : (site.serve .provider).run env tr =
        (env tr .provider, tr ++ [⟨.provider, env tr .provider⟩]) := rfl
    rw [castVote, if_pos hvia, Async.handle_bind, Async.exec_bind, Async.exec_handle_ask, hrun]
    dsimp only
    cases hfound : env tr .provider with
    | true =>
      rw [if_pos rfl]
      obtain ⟨r, asked, hexec, hcasts⟩ := @casts_signed site env (tr ++ [⟨.provider, true⟩]) nt s
        network txHash vote hvia
      refine ⟨r, ⟨.provider, true⟩ :: asked, ?_, hcasts.cons_provider true⟩
      rw [hexec, List.append_assoc]
      rfl
    | false =>
      refine ⟨_, [⟨.provider, false⟩], rfl, ?_⟩
      exact casts_unsent rfl (List.nil_sublist _) (fun _ => rfl) fun _ h => by cases h
  | false =>
    rw [castVote, hvia, if_neg Bool.false_ne_true]
    obtain ⟨o, asked, hexec, hsub⟩ := @exec_submitVote site env tr nt voteFailed false
      (voteBody network s.voterHex txHash vote none)
    refine ⟨_, asked, hexec, @casts_submitted site nt s network txHash vote o [] asked none _ _ rfl
      (List.nil_sublist _) (fun _ => ⟨rfl, rfl⟩) (fun h => ?_) hsub⟩
    rw [hvia] at h
    cases h

end

end BoingObserver.Qa
