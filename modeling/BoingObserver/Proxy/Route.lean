import BoingObserver.Http
import BoingObserver.Oracle
import BoingObserver.Proxy.Policy
import BoingObserver.Rpc.Client

/-!
# The RPC proxy

`POST` of `app/api/rpc/route.ts`: a checked request goes to the upstreams in turn, until
one gives an answer worth returning.  Each may answer in any way, or fail.

* `judge_forwarded`: what is known of a body that is passed through.
* `exec_forward`: the loop over the upstreams.
* `proxy_law`: what the handler sends and returns.
-/

namespace BoingObserver.Proxy

open Js Http Rpc NativeUnit Oracle

/-! ## Requests and answers -/

/-- A call of `fetch`: all that differs from call to call. -/
structure Fetch where
  url : Text
  body : Text

/-- The answer of an upstream; reading the body may throw. -/
structure Upstream where
  status : ℕ
  contentLength : Option Text
  cfMitigated : Option Text
  contentType : Option Text
  body : Except Thrown (List ℕ)

def Upstream.ok (u : Upstream) : Bool := 200 ≤ u.status && u.status ≤ 299

abbrev Outcome : Fetch → Type := fun _ => Except Thrown Upstream

abbrev Calls (α : Type) : Type := Async Outcome Thrown α

def fetch (q : Fetch) : Calls Upstream := ExceptT.mk (Prog.query q)

structure HttpRequest where
  network : Option Text
  contentLength : Option Text
  /-- `await req.text()`; nothing when it throws. -/
  text : Option Text

/-- A response of the handler: one of its own, or the body of an upstream. -/
inductive Response
  | json (status : ℕ) (body : Value)
  | forwarded (status : ℕ) (contentType text : Text)

structure Platform where
  numberText : NumberText
  /-- `JSON.parse(text)`; nothing when it throws. -/
  parse : Text → Option Value
  /-- `JSON.stringify(v)`, which throws for a value nested too deeply. -/
  stringify : Value → Except Thrown Text
  /-- `new TextDecoder().decode(bytes)` -/
  decode : List ℕ → Text
  /-- What `new Response(body, { status })` throws for a status that has no body. -/
  noBody : Thrown

def rpcErrorBody (id code : ℤ) (message : Text) : Value :=
  .object [("jsonrpc", .string "2.0"), ("id", .number (.finite id)),
    ("error", .object [("code", .number (.finite code)), ("message", .string message)])]

def rpcError (id code : ℤ) (message : Text) : Response :=
  .json 200 (rpcErrorBody id code message)

/-! ## The request -/

def maxBodyBytes : ℕ := 1048576

/-- `new TextEncoder().encode(s).byteLength` -/
def byteLength (s : Text) : ℕ := (s.map Char.utf8Size).sum

def upstreamBases (env : RpcEnv) : NetworkId → Except JsError (List Text)
  | .testnet => .ok (getTestnetRpcCandidates env)
  | .mainnet => (getRpcBaseUrl env .mainnet).map fun url => [url]

def messageOf : JsError → Text
  | .error message => message
  | _ => "RPC not configured"

def accept (p : Platform) (env : RpcEnv) (req : HttpRequest) :
    Except Refusal (List Text × ProxyRequest) := do
  let network ← orRefuse (networkOf req.network)
    (errorJson 400 "Missing or invalid X-Boing-RPC-Network (testnet | mainnet)")
  let bases ← (upstreamBases env network).mapError fun e => errorJson 400 (messageOf e)
  refuseIf (req.contentLength.any fun s =>
    s ≠ [] && exceeds (p.numberText.number (.string s)) maxBodyBytes)
    (errorJson 413 "Request body too large")
  let raw ← orRefuse req.text (errorJson 400 "Invalid request body")
  refuseIf (maxBodyBytes < byteLength raw) (errorJson 413 "Request body too large")
  let body ← orRefuse (p.parse raw) (errorJson 400 "Invalid JSON body")
  match validateProxyRequest body with
  | .ok request => .ok (bases, request)
  | .invalid error _ => .error (errorJson 400 error)
  | .methodNotAllowed method id =>
    .error ⟨200, rpcErrorBody id (-32601)
      (("Method not allowed via explorer proxy: " : Text) ++ method)⟩

/-! ## One upstream -/

def maxResponseBytes : ℕ := 6 * 1048576

/-- Statuses after which the next upstream is tried. -/
def failoverStatuses : List ℕ := [403, 502, 503, 504, 521, 522, 523, 524, 525, 526, 530]

/-- The number in the `content-length` header, `NaN` without one. -/
def declaredLength (p : Platform) (u : Upstream) : Number :=
  match u.contentLength with
  | some s => p.numberText.number (.string s)
  | none => .nan

def looksLikeCfChallenge (u : Upstream) (text : Text) : Bool :=
  u.status = 403 &&
    (includes (toLowerCase (u.cfMitigated.getD [])) "cf-mitigated" ||
      includes (toLowerCase text) "just a moment" ||
      includes (toLowerCase text) "challenges.cloudflare.com")

def isWordChar (c : Char) : Bool := c.isAlphanum || c = '_'

/-- `/\b1033\b/.test(s)` -/
def mentions1033 (s : Text) : Bool :=
  (List.range s.length).any fun i =>
    ("1033" : Text).isPrefixOf (s.drop i) &&
      !((s.take i).getLast?.any isWordChar) && !((s.drop (i + 4)).head?.any isWordChar)

/-- What an answered error says of the public hostname. -/
def edgeHint (u : Upstream) (text : Text) : Text :=
  if u.status = 530 ∨ mentions1033 text then
    " Public hostname did not reach a hosted node—verify Fly backends and the RPC gateway."
  else if looksLikeCfChallenge u text ∨ u.status = 403 then
    " Public hostname returned a Cloudflare challenge—Bot Fight Mode must stay off for JSON-RPC clients."
  else []

def tooLargeDeclared (p : Platform) (n : Number) : Text :=
  ("Upstream RPC response too large (" : Text) ++ p.numberText.text n ++ (" bytes; limit " : Text) ++
    decimal maxResponseBytes ++
      ("). Often a block with large deploy bytecode — try a specific " : Text) ++
      ("height or upgrade the node to hex-encode bytecode." : Text)

def tooLarge (n : ℕ) : Text :=
  ("Upstream RPC response too large (" : Text) ++ decimal n ++ (" bytes; limit " : Text) ++
    decimal maxResponseBytes ++ (")." : Text)

def truncated (p : Platform) (n : ℕ) (declared : Number) : Text :=
  ("Upstream RPC response truncated (" : Text) ++ decimal n ++ (" of " : Text) ++
    p.numberText.text declared ++
      (" bytes). Usually an oversized block cut by a gateway timeout " : Text) ++
      ("— retry or skip that height." : Text)

def invalidJson : Text :=
  ("Upstream RPC returned truncated or invalid JSON (often a mid-array cut of deploy " : Text) ++
    ("bytecode). Not forwarding corrupt body." : Text)

def httpError (status : ℕ) (hint : Text) : Text :=
  trim (("Boing RPC endpoint returned HTTP " : Text) ++ decimal status ++ '.' :: hint)

/-- `new NextResponse(text, …)` -/
def newResponse (p : Platform) (status : ℕ) (contentType text : Text) : Except Thrown Response :=
  if status = 204 ∨ status = 205 then .error p.noBody
  else .ok (.forwarded status contentType text)

/-- What to do with the answer of an upstream: respond, or remember it and try the next. -/
inductive Verdict
  | respond (r : Response)
  | failover (status : ℕ) (text : Text)

/-- The body of the loop, after `fetch`; `more` upstreams follow. -/
def judge (p : Platform) (reqId : ℤ) (more : Bool) (u : Upstream) : Except Thrown Verdict :=
  let respondError (message : Text) : Except Thrown Verdict :=
    .ok (.respond (rpcError reqId (-32000) message))
  let declared := declaredLength p u
  if isMoreThan declared maxResponseBytes then respondError (tooLargeDeclared p declared)
  else do
    let buf ← u.body
    let text := p.decode buf
    if !u.ok && (u.status ∈ failoverStatuses || looksLikeCfChallenge u text) && more then
      .ok (.failover u.status text)
    else if !u.ok then respondError (httpError u.status (edgeHint u text))
    else if maxResponseBytes < buf.length then respondError (tooLarge buf.length)
    else if isMoreThan declared buf.length then respondError (truncated p buf.length declared)
    else if (p.parse text).isNone then respondError invalidJson
    else
      (newResponse p u.status (u.contentType.getD "application/json") text).map .respond

/-! ## The loop -/

def upstreamTimeoutMs : ℕ := 30000

def upstreamUrl (base : Text) : Text := if base.getLast? = some '/' then base else base ++ ['/']

def tryUpstream (p : Platform) (reqId : ℤ) (serialized base : Text) (more : Bool) :
    Calls Verdict := do
  let upstream ← fetch ⟨upstreamUrl base, serialized⟩
  Async.ofExcept (judge p reqId more upstream)

def timedOut (e : Thrown) : Bool :=
  e.isError && (e.name = "TimeoutError" || e.name = "AbortError" ||
    includes (toLowerCase e.message) "aborted" || includes (toLowerCase e.message) "timeout")

def networkError (e : Thrown) : Text :=
  if timedOut e then
    ("Upstream RPC timed out after " : Text) ++ decimal (upstreamTimeoutMs / 1000) ++ ("s." : Text)
  else "Upstream RPC unreachable (network error from proxy)."

structure Last where
  status : ℕ
  text : Text
  error : Text

def lastResponse (reqId : ℤ) (last : Last) : Response :=
  let tunnelHint : Text :=
    if last.status = 530 ∨ mentions1033 last.text then
      " Public hostname did not reach a hosted node—verify Fly backends and the RPC gateway."
    else []
  rpcError reqId (-32000) <|
    if last.error ≠ [] then last.error
    else httpError (if last.status = 0 then 502 else last.status) tunnelHint

def forward (p : Platform) (reqId : ℤ) (serialized : Text) : List Text → Last → Calls Response
  | [], last => pure (lastResponse reqId last)
  | base :: rest, last => do
    match ← Async.attempt (tryUpstream p reqId serialized base (rest ≠ [])) with
    | .ok (.respond r) => return r
    | .ok (.failover status text) => forward p reqId serialized rest { last with status, text }
    | .error e =>
      if rest ≠ [] then
        forward p reqId serialized rest { last with error := networkError e }
      else return rpcError reqId (-32000) (networkError e)

def post (p : Platform) (env : RpcEnv) (req : HttpRequest) : Calls Response :=
  match accept p env req with
  | .error r => pure (.json r.status r.body)
  | .ok (bases, request) => do
    let serialized ← Async.ofExcept (p.stringify request.toValue)
    forward p request.id serialized bases ⟨0, [], []⟩

/-! ## What is passed through -/

/-- The answer `u` with the body `buf` may be returned as the text `text`. -/
structure Upstream.Passes (p : Platform) (u : Upstream) (buf : List ℕ) (text : Text) : Prop where
  ok : u.ok = true
  body : u.body = .ok buf
  text_eq : text = p.decode buf
  small : buf.length ≤ maxResponseBytes
  complete : ∀ q, declaredLength p u = .finite q → q ≤ buf.length
  valid : ∃ v, p.parse text = some v

/-- **A body is passed through** only from an upstream that answered well and in full. -/
theorem judge_forwarded {p : Platform} {reqId : ℤ} {more : Bool} {u : Upstream} {status : ℕ}
    {contentType text : Text}
    (h : judge p reqId more u = .ok (.respond (.forwarded status contentType text))) :
    status = u.status ∧ ∃ buf, u.Passes p buf text := by
  unfold judge at h
  dsimp only at h
  split at h
  · cases h
  · cases hbody : u.body with
    | error e =>
      rw [hbody] at h
      cases h
    | ok buf =>
      rw [hbody] at h
      change (if _ then _ else _) = _ at h
      -- One exit after the other; only the last one passes the body through.
      split_ifs at h with h₁ hok hsize hlen hjson <;> try cases h
      unfold newResponse at h
      split at h
      · cases h
      · cases h
        refine ⟨rfl, buf, ?_, hbody, rfl, not_lt.mp hsize, ?_, ?_⟩
        · simpa using hok
        · intro q hq
          rw [hq] at hlen
          exact not_lt.mp fun hlt => hlen (decide_eq_true hlt)
        · exact Option.ne_none_iff_exists'.mp fun hnone => hjson (Option.isNone_iff_eq_none.mpr hnone)

/-! ## The loop over the upstreams -/

variable {env : Env Outcome}

theorem exec_tryUpstream (p : Platform) (reqId : ℤ) (serialized base : Text) (more : Bool)
    (tr : Trace Outcome) :
    let q : Fetch := ⟨upstreamUrl base, serialized⟩
    Async.exec env (tryUpstream p reqId serialized base more) tr =
      ((env tr q).bind (judge p reqId more), tr ++ [⟨q, env tr q⟩]) := by
  intro q
  have hfetch : Async.exec env (fetch q) tr = (env tr q, tr ++ [⟨q, env tr q⟩]) := rfl
  rw [tryUpstream, Async.exec_bind, hfetch]
  cases env tr q with
  | error e => rfl
  | ok u => rfl

/-- What the loop asks, in order, and what its response is. -/
structure Forwarded (p : Platform) (serialized : Text) (bases : List Text) (r : Response)
    (asked : Trace Outcome) : Prop where
  in_turn : asked.map Sigma.fst <+: bases.map fun base => ⟨upstreamUrl base, serialized⟩
  passed : ∀ status contentType text, r = .forwarded status contentType text →
    ∃ (q : Fetch) (u : Upstream) (buf : List ℕ),
      asked.getLast? = some ⟨q, .ok u⟩ ∧ status = u.status ∧ u.Passes p buf text

theorem Forwarded.cons {p : Platform} {serialized base : Text} {rest : List Text} {r : Response}
    {asked : Trace Outcome} (o : Except Thrown Upstream)
    (h : Forwarded p serialized rest r asked) :
    Forwarded p serialized (base :: rest) r (⟨⟨upstreamUrl base, serialized⟩, o⟩ :: asked) where
  in_turn := List.cons_prefix_cons.mpr ⟨rfl, h.in_turn⟩
  passed := by
    intro status contentType text hr
    obtain ⟨q, u, buf, hlast, hpass⟩ := h.passed status contentType text hr
    refine ⟨q, u, buf, ?_, hpass⟩
    rw [List.getLast?_cons, hlast]
    rfl

theorem Forwarded.of_json {p : Platform} {serialized base : Text} {rest : List Text} {status : ℕ}
    {body : Value} (o : Except Thrown Upstream) :
    Forwarded p serialized (base :: rest) (.json status body)
      [⟨⟨upstreamUrl base, serialized⟩, o⟩] where
  in_turn := List.cons_prefix_cons.mpr ⟨rfl, List.nil_prefix⟩
  passed := by
    intro _ _ _ hr
    cases hr

/-- **The loop always responds**, having asked the upstreams in turn. -/
theorem exec_forward (p : Platform) (reqId : ℤ) (serialized : Text) (bases : List Text) (last : Last)
    (tr : Trace Outcome) :
    ∃ r asked, Async.exec env (forward p reqId serialized bases last) tr = (.ok r, tr ++ asked) ∧
      Forwarded p serialized bases r asked := by
  induction bases generalizing last tr with
  | nil =>
    refine ⟨lastResponse reqId last, [], ?_, List.nil_prefix, ?_⟩
    · rw [List.append_nil]
      rfl
    · intro _ _ _ hr
      cases hr
  | cons base rest ih =>
    rw [forward, Async.exec_bind, Async.exec_attempt, exec_tryUpstream]
    set o := env tr ⟨upstreamUrl base, serialized⟩ with ho
    -- The rest of the loop, after this upstream has failed.
    have hrest : ∀ last', ∃ r asked, Async.exec env (forward p reqId serialized rest last')
        (tr ++ [⟨⟨upstreamUrl base, serialized⟩, o⟩]) = (.ok r, tr ++ asked) ∧
          Forwarded p serialized (base :: rest) r asked := by
      intro last'
      obtain ⟨r, asked, hexec, hr⟩ := ih last' (tr ++ [⟨⟨upstreamUrl base, serialized⟩, o⟩])
      refine ⟨r, _, ?_, hr.cons o⟩
      rw [hexec, List.append_assoc]
      rfl
    cases hjudge : o.bind (judge p reqId (decide (rest ≠ []))) with
    | error e =>
      by_cases hmore : rest ≠ []
      · obtain ⟨r, asked, hexec, hr⟩ := hrest { last with error := networkError e }
        refine ⟨r, asked, ?_, hr⟩
        change Async.exec env (if rest ≠ [] then _ else _) _ = _
        rw [if_pos hmore]
        exact hexec
      · refine ⟨rpcError reqId (-32000) (networkError e),
          [⟨⟨upstreamUrl base, serialized⟩, o⟩], ?_, Forwarded.of_json o⟩
        change Async.exec env (if rest ≠ [] then _ else _) _ = _
        rw [if_neg hmore]
        rfl
    | ok verdict =>
      cases verdict with
      | failover status text => exact hrest { last with status, text }
      | respond r =>
        refine ⟨r, [⟨⟨upstreamUrl base, serialized⟩, o⟩], rfl,
          List.cons_prefix_cons.mpr ⟨rfl, List.nil_prefix⟩, ?_⟩
        rintro status contentType text rfl
        cases hu : o with
        | error e =>
          rw [hu] at hjudge
          cases hjudge
        | ok u =>
          rw [hu] at hjudge
          obtain ⟨hstatus, buf, hpass⟩ := judge_forwarded hjudge
          exact ⟨_, u, buf, rfl, hstatus, hpass⟩

/-! ## The handler -/

/-- The request goes to `bases` as `request`. -/
structure Accepted (p : Platform) (rpcEnv : RpcEnv) (req : HttpRequest) (bases : List Text)
    (request : ProxyRequest) : Prop where
  network : ∃ network, networkOf req.network = some network ∧
    upstreamBases rpcEnv network = .ok bases
  body : ∃ raw body, req.text = some raw ∧ p.parse raw = some body ∧
    body.get "method" = .string request.method ∧ request.id = requestId (body.get "id") ∧
      requestParams (body.get "params") = some request.params
  conforms : request.Conforms

theorem accept_ok {p : Platform} {rpcEnv : RpcEnv} {req : HttpRequest} {bases : List Text}
    {request : ProxyRequest} (h : accept p rpcEnv req = .ok (bases, request)) :
    Accepted p rpcEnv req bases request := by
  rw [accept] at h
  obtain ⟨network, hnet, h⟩ := bind_eq_ok h
  obtain ⟨bases', hbases, h⟩ := bind_eq_ok h
  obtain ⟨-, -, h⟩ := bind_eq_ok h
  obtain ⟨raw, hraw, h⟩ := bind_eq_ok h
  obtain ⟨-, -, h⟩ := bind_eq_ok h
  obtain ⟨body, hbody, h⟩ := bind_eq_ok h
  split at h
  next request' hchecked =>
    obtain ⟨rfl, rfl⟩ := Prod.mk.inj (Except.ok.inj h)
    obtain ⟨hconf, hsame⟩ := validateProxyRequest_ok hchecked
    refine ⟨⟨network, orRefuse_eq_ok hnet, ?_⟩, ⟨raw, body, orRefuse_eq_ok hraw,
      orRefuse_eq_ok hbody, hsame⟩, hconf⟩
    cases hb : upstreamBases rpcEnv network with
    | error e =>
      rw [hb] at hbases
      cases hbases
    | ok bases =>
      rw [hb] at hbases
      rw [Except.ok.inj hbases]
  next => cases h
  next => cases h

theorem nodup_upstreamBases {rpcEnv : RpcEnv} {network : NetworkId} {bases : List Text}
    (h : upstreamBases rpcEnv network = .ok bases) : bases.Nodup := by
  cases network with
  | testnet =>
    obtain rfl := Except.ok.inj h
    exact nodup_getTestnetRpcCandidates rpcEnv
  | mainnet =>
    rw [upstreamBases] at h
    cases hurl : getRpcBaseUrl rpcEnv .mainnet with
    | error e =>
      rw [hurl] at h
      cases h
    | ok url =>
      rw [hurl] at h
      obtain rfl := Except.ok.inj h
      exact List.nodup_singleton url

theorem exec_post_refused {p : Platform} {rpcEnv : RpcEnv} {req : HttpRequest} {r : Refusal}
    (h : accept p rpcEnv req = .error r) (tr : Trace Outcome) :
    Async.exec env (post p rpcEnv req) tr = (.ok (.json r.status r.body), tr) := by
  rw [post, h]
  rfl

theorem exec_post_unserialized {p : Platform} {rpcEnv : RpcEnv} {req : HttpRequest}
    {bases : List Text} {request : ProxyRequest} {e : Thrown}
    (h : accept p rpcEnv req = .ok (bases, request)) (hs : p.stringify request.toValue = .error e)
    (tr : Trace Outcome) : Async.exec env (post p rpcEnv req) tr = (.error e, tr) := by
  rw [post, h]
  dsimp only
  rw [hs]
  rfl

theorem exec_post_serialized {p : Platform} {rpcEnv : RpcEnv} {req : HttpRequest}
    {bases : List Text} {request : ProxyRequest} {serialized : Text}
    (h : accept p rpcEnv req = .ok (bases, request))
    (hs : p.stringify request.toValue = .ok serialized) (tr : Trace Outcome) :
    Async.exec env (post p rpcEnv req) tr =
      Async.exec env (forward p request.id serialized bases ⟨0, [], []⟩) tr := by
  rw [post, h]
  dsimp only
  rw [hs]
  rfl

/-- The request is refused, or `JSON.stringify` gives a text for what is to be sent. -/
def Serializable (p : Platform) (rpcEnv : RpcEnv) (req : HttpRequest) : Prop :=
  ∀ bases request, accept p rpcEnv req = .ok (bases, request) →
    ∃ serialized, p.stringify request.toValue = .ok serialized

/-- What the policy says of a run with this result that asked for this: nothing is asked, and
nothing of an upstream returned; or a prefix of the upstreams is asked in turn, each at most once,
always for the request the policy made of the body, and a body is passed through only from the
upstream asked last, which answered well, in full and with valid JSON. -/
def KeepsPolicy (p : Platform) (rpcEnv : RpcEnv) (req : HttpRequest)
    (result : Except Thrown Response) (asked : Trace Outcome) : Prop :=
  (asked = [] ∧ ∀ r, result = .ok r → ∃ status body, r = .json status body) ∨
    ∃ bases request serialized, Accepted p rpcEnv req bases request ∧ bases.Nodup ∧
      p.stringify request.toValue = .ok serialized ∧
      asked.map Sigma.fst <+: bases.map (fun base => ⟨upstreamUrl base, serialized⟩) ∧
      ∀ status contentType text, result = .ok (.forwarded status contentType text) →
        ∃ (q : Fetch) (u : Upstream) (buf : List ℕ),
          asked.getLast? = some ⟨q, .ok u⟩ ∧ status = u.status ∧ u.Passes p buf text

/-- **The proxy forwards what its policy allows**, whatever the upstreams answer.  The handler
responds exactly when the request can be serialized, or is refused before. -/
theorem proxy_law (p : Platform) (rpcEnv : RpcEnv) (req : HttpRequest) (env : Env Outcome) :
    KeepsPolicy p rpcEnv req (Async.exec env (post p rpcEnv req) []).1
        (Async.exec env (post p rpcEnv req) []).2 ∧
      ((∃ r, (Async.exec env (post p rpcEnv req) []).1 = .ok r) ↔ Serializable p rpcEnv req) := by
  cases h : accept p rpcEnv req with
  | error r =>
    rw [exec_post_refused h]
    refine ⟨Or.inl ⟨rfl, ?_⟩, iff_of_true ⟨_, rfl⟩ ?_⟩
    · rintro _ ⟨⟩
      exact ⟨_, _, rfl⟩
    · intro bases request haccept
      cases h.symm.trans haccept
  | ok checked =>
    obtain ⟨bases, request⟩ := checked
    cases hs : p.stringify request.toValue with
    | error e =>
      rw [exec_post_unserialized h hs]
      refine ⟨Or.inl ⟨rfl, fun r hr => by cases hr⟩, iff_of_false ?_ fun hall => ?_⟩
      · rintro ⟨r, hr⟩
        cases hr
      · obtain ⟨serialized, hok⟩ := hall bases request h
        cases hs.symm.trans hok
    | ok serialized =>
      have haccepted := accept_ok h
      obtain ⟨network, -, hbases⟩ := haccepted.network
      obtain ⟨r, asked, hexec, hturn, hpassed⟩ :=
        exec_forward p request.id serialized bases ⟨0, [], []⟩ []
      rw [exec_post_serialized h hs, hexec]
      refine ⟨Or.inr ⟨bases, request, serialized, haccepted, nodup_upstreamBases hbases, hs, hturn,
        ?_⟩, iff_of_true ⟨r, rfl⟩ ?_⟩
      · intro status contentType text hr
        exact hpassed status contentType text (Except.ok.inj hr)
      · intro bases' request' h'
        obtain ⟨-, rfl⟩ := Prod.mk.inj (Except.ok.inj (h.symm.trans h'))
        exact ⟨serialized, hs⟩

/-! ## Parameters that are nested too deeply -/

namespace DeepParams

/-- What `JSON.stringify` throws when the stack is spent. -/
def rangeError : Thrown := ⟨true, "RangeError", "Maximum call stack size exceeded"⟩

def quoted (s : Text) : Text := '"' :: s ++ ['"']

/-- `JSON.stringify` on a stack of so many frames, for texts that need no escape. -/
def stringify (nt : NumberText) : ℕ → Value → Except Thrown Text
  | 0, _ => .error rangeError
  | n + 1, v =>
    match v with
    | .array xs => do
      let items ← xs.mapM (stringify nt n)
      return '[' :: [','].intercalate items ++ [']']
    | .object kvs => do
      let members ← kvs.mapM fun kv => do
        let item ← stringify nt n kv.2
        return quoted kv.1 ++ ':' :: item
      return '\x7b' :: [','].intercalate members ++ ['\x7d']
    | .string s => .ok (quoted s)
    | .number (.finite q) => .ok (nt.text (.finite q))
    | .bool b => .ok (if b then "true" else "false")
    | _ => .ok "null"

def nest : ℕ → Value
  | 0 => .array []
  | n + 1 => .array [nest n]

/-- No stack is deep enough for every value. -/
theorem stringify_nest (nt : NumberText) {n m : ℕ} (h : n ≤ m) :
    stringify nt n (nest m) = .error rangeError := by
  induction n generalizing m with
  | zero => rfl
  | succ n ih =>
    obtain ⟨m, rfl⟩ := Nat.exists_eq_succ_of_ne_zero (show m ≠ 0 by omega)
    have hinner := ih (Nat.le_of_succ_le_succ h)
    rw [nest, stringify, List.mapM_cons, hinner]
    rfl

def request (param : Value) : ProxyRequest := ⟨1, "boing_chainHeight", [param]⟩

theorem stringify_request (nt : NumberText) {n : ℕ} {param : Value}
    (h : stringify nt n param = .error rangeError) :
    stringify nt (n + 2) (request param).toValue = .error rangeError := by
  have hparams : stringify nt (n + 1) (.array [param]) = .error rangeError := by
    rw [stringify, List.mapM_cons, h]
    rfl
  have hmembers : ∀ kvs : List (Text × Value), stringify nt (n + 2) (.object kvs) = (do
      let members ← kvs.mapM fun kv => do
        let item ← stringify nt (n + 1) kv.2
        return quoted kv.1 ++ ':' :: item
      return '\x7b' :: [','].intercalate members ++ ['\x7d']) := fun _ => rfl
  rw [ProxyRequest.toValue, hmembers]
  simp only [List.mapM_cons, request, hparams]
  rfl

def textHead : Text :=
  "\x7b\"jsonrpc\":\"2.0\",\"id\":1,\"method\":\"boing_chainHeight\",\"params\":["

def text (n : ℕ) : Text :=
  textHead ++ (List.replicate (n + 1) '[' ++ (List.replicate (n + 1) ']' ++ [']', '\x7d']))

theorem byteLength_append (s t : Text) : byteLength (s ++ t) = byteLength s + byteLength t := by
  rw [byteLength, List.map_append, List.sum_append]
  rfl

theorem byteLength_replicate (n : ℕ) {c : Char} (h : c.utf8Size = 1) :
    byteLength (List.replicate n c) = n := by
  rw [byteLength, List.map_replicate, h, List.sum_replicate, Nat.nsmul_eq_mul, Nat.mul_one]

theorem byteLength_text (n : ℕ) : byteLength (text n) = 2 * n + 67 := by
  have hhead : byteLength textHead = 63 := by decide
  have htail : byteLength [']', '\x7d'] = 2 := by decide
  have hopen := byteLength_replicate (n + 1) (show '['.utf8Size = 1 by decide)
  have hclose := byteLength_replicate (n + 1) (show ']'.utf8Size = 1 by decide)
  rw [text, byteLength_append, byteLength_append, byteLength_append, hhead, htail, hopen, hclose]
  omega

/-- A platform whose stack has `n` frames, on the text of this request. -/
def platform (n : ℕ) : Platform where
  numberText := integersOnly
  parse s := if s = text n then some (request (nest n)).toValue else none
  stringify := stringify integersOnly n
  decode bytes := bytes.map Char.ofNat
  noBody := ⟨true, "TypeError", "Invalid response status code 204"⟩

def httpRequest (n : ℕ) : HttpRequest := ⟨some "testnet", none, some (text n)⟩

def rpcEnv : RpcEnv := ⟨none, none, none⟩

theorem accept_text {p : Platform} {s : Text} {param : Value} (hs : byteLength s ≤ maxBodyBytes)
    (hparse : p.parse s = some (request param).toValue) :
    accept p rpcEnv ⟨some "testnet", none, some s⟩ =
      .ok (getTestnetRpcCandidates rpcEnv, request param) := by
  have hsmall : decide (maxBodyBytes < byteLength s) = false := decide_eq_false (not_lt.mpr hs)
  have hvalid : validateProxyRequest (request param).toValue = .ok (request param) := rfl
  have hraw : refuseIf (decide (maxBodyBytes < byteLength s))
      (errorJson 413 "Request body too large") = .ok () := by
    rw [hsmall]
    rfl
  change ((refuseIf (decide (maxBodyBytes < byteLength s))
    (errorJson 413 "Request body too large")).bind fun _ =>
      (orRefuse (p.parse s) _).bind _) = _
  rw [hraw, hparse]
  rfl

theorem accept_httpRequest {n : ℕ} (h : 2 * n + 67 ≤ maxBodyBytes) :
    accept (platform n) rpcEnv (httpRequest n) =
      .ok (getTestnetRpcCandidates rpcEnv, request (nest n)) := by
  refine accept_text ?_ (if_pos rfl)
  rwa [byteLength_text]

/-- The request cannot be sent on. -/
theorem stringify_nested (n : ℕ) :
    (platform (n + 2)).stringify (request (nest (n + 2))).toValue = .error rangeError :=
  stringify_request integersOnly (stringify_nest integersOnly (Nat.le_add_right n 2))

def answers : Env Outcome := fun _ _ =>
  .ok ⟨200, none, none, none, .ok (("\x7b\"result\":7\x7d" : Text).map Char.toNat)⟩

end DeepParams

open DeepParams in
/-- **A request of 10 KB without a response**: it is accepted, and the handler throws before it asks
an upstream. -/
theorem deepParams_no_response :
    accept (platform 5000) rpcEnv (httpRequest 5000) =
        .ok (getTestnetRpcCandidates rpcEnv, request (nest 5000)) ∧
      Async.exec answers (post (platform 5000) rpcEnv (httpRequest 5000)) [] =
        (.error rangeError, []) := by
  have haccept := accept_httpRequest (show 2 * 5000 + 67 ≤ maxBodyBytes by decide)
  exact ⟨haccept, exec_post_unserialized haccept (stringify_nested 4998) []⟩

end BoingObserver.Proxy
