import BoingObserver.Edge.Middleware
import BoingObserver.Proxy.Route
import BoingObserver.Rpc.Call

/-!
# Calls through the proxy

`rpcCall` in a browser, on top of the explorer's own server: an exchange passes the edge, which may
lose it, turn it away or let it through to the handler of `app/api/rpc/route.ts`.

* `Exchanged`: what one exchange asks of the upstreams, and what a result of it comes from.
* `rpcCall_proxied`: the same for a whole call.
-/

namespace BoingObserver.Rpc

open Js Http NativeUnit Oracle Proxy Edge

/-! ## The way to the handler -/

/-- What becomes of an exchange at the edge. -/
inductive Passage
  /-- It fails in the network. -/
  | lost (e : Thrown)
  /-- The platform answers it with an error of its own. -/
  | failed (res : HttpResponse) (h : res.ok = false)
  /-- The middleware refuses it. -/
  | limited (rl : RateLimit.RateLimitResult)
  /-- The handler gets it, with this `content-length`. -/
  | reached (contentLength : Option Text)

/-- What is asked on the way: the questions of a call, and the requests of the handler. -/
inductive Hop
  | nextId
  | sleep (ms : ℕ)
  | pass (q : Post)
  | fetch (q : Fetch)

abbrev Hop.Answer : Hop → Type
  | .nextId => ℕ
  | .sleep _ => Unit
  | .pass _ => Passage
  | .fetch q => Outcome q

/-- The explorer: its platform and endpoints, what `JSON.stringify` of a client gives, and what a
client reads of a status and of a body that is no JSON. -/
structure Site where
  platform : Platform
  rpcEnv : RpcEnv
  stringify : Value → Except Thrown Text
  statusText : ℕ → Text
  syntaxError : Thrown

/-- `RequestInit` of the exchange as the handler reads it. -/
def httpRequest (q : Post) (text : Text) (contentLength : Option Text) : Proxy.HttpRequest where
  network := q.network.map NetworkId.text
  contentLength := contentLength
  text := some text

def Site.read (site : Site) : Proxy.Response → HttpResponse
  | .json status body => ⟨status, site.statusText status, none, .ok body⟩
  | .forwarded status _ text =>
    ⟨status, site.statusText status, none,
      match site.platform.parse text with
      | some v => .ok v
      | none => .error site.syntaxError⟩

def Site.limited (site : Site) (rl : RateLimit.RateLimitResult) : HttpResponse where
  status := 429
  statusText := site.statusText 429
  retryAfter := some (intText rl.retryAfterSec)
  json := .ok (.object [("code", .string "rate_limited")])

/-- The framework's answer for a handler that throws. -/
def Site.crashed (site : Site) : HttpResponse :=
  ⟨500, site.statusText 500, none, .error site.syntaxError⟩

def Site.readResult (site : Site) : Except Thrown Proxy.Response → HttpResponse
  | .ok r => site.read r
  | .error _ => site.crashed

def Site.handled (site : Site) (req : Proxy.HttpRequest) :
    Prog Hop.Answer (Except Thrown HttpResponse) := do
  let r ← (Proxy.post site.platform site.rpcEnv req).run.handle fun q => Prog.query (Hop.fetch q)
  pure (.ok (site.readResult r))

def Site.answer (site : Site) (q : Post) (text : Text) :
    Passage → Prog Hop.Answer (Except Thrown HttpResponse)
  | .lost e => pure (.error e)
  | .failed res _ => pure (.ok res)
  | .limited rl => pure (.ok (site.limited rl))
  | .reached contentLength => site.handled (httpRequest q text contentLength)

def Site.serve (site : Site) : (a : Ask) → Prog Hop.Answer a.Answer
  | .nextId => Prog.query Hop.nextId
  | .sleep ms => Prog.query (Hop.sleep ms)
  | .post q =>
    match site.stringify q.body with
    | .error e => pure (.error e)
    | .ok text => Prog.query (Hop.pass q) >>= site.answer q text

/-! ## What the upstreams see -/

def fetches (asked : Trace Hop.Answer) : Trace Outcome :=
  asked.filterMap fun s =>
    match s with
    | ⟨.fetch q, o⟩ => some ⟨q, o⟩
    | _ => none

def exchanges (asked : Trace Hop.Answer) : List Post :=
  asked.filterMap fun s =>
    match s with
    | ⟨.pass q, _⟩ => some q
    | _ => none

theorem fetches_append (t t' : Trace Hop.Answer) : fetches (t ++ t') = fetches t ++ fetches t' :=
  List.filterMap_append

/-- A request that may be sent for the call: to an endpoint of its network, with its method and
parameters, and a method that is allowed. -/
def Site.MaySend (site : Site) (c : Call) (q : Fetch) : Prop :=
  ∃ bases base id serialized, upstreamBases site.rpcEnv c.network = .ok bases ∧ base ∈ bases ∧
    c.method ∈ allowedRpcMethods ∧ c.params.length ≤ maxRpcParams ∧
    site.platform.stringify (ProxyRequest.toValue ⟨id, c.method, c.params⟩) = .ok serialized ∧
    q = ⟨upstreamUrl base, serialized⟩

/-- The upstream answered well, in full, with JSON that has no error, and this result. -/
def Site.Delivers (site : Site) (u : Upstream) (v : Value) : Prop :=
  ∃ buf text data, u.Passes site.platform buf text ∧ site.platform.parse text = some data ∧
    (data.get "error").truthy = false ∧ v = data.get "result"

def upstreams (asked : Trace Hop.Answer) : List Text := (fetches asked).map fun s => s.1.url

/-- What one exchange asks of the upstreams, and what a result of it comes from. -/
structure Exchanged (site : Site) (nt : NumberText) (c : Call) (o : Except Thrown HttpResponse)
    (asked : Trace Hop.Answer) : Prop where
  once : (exchanges asked).length ≤ 1
  in_turn : ∀ bases, upstreamBases site.rpcEnv c.network = .ok bases →
    upstreams asked <+: bases.map upstreamUrl
  sent : ∀ s ∈ fetches asked, site.MaySend c s.1
  delivered : ∀ v, conclude nt c.method o = .ok v →
    ∃ q u, (fetches asked).getLast? = some ⟨q, .ok u⟩ ∧ site.Delivers u v

/-! ## Responses of the proxy's own -/

section

variable {site : Site} {nt : NumberText} {c : Call}

/-- The text a client writes for a call is read back as it was meant. -/
def Site.Reads (site : Site) (c : Call) : Prop :=
  ∀ (id : ℕ) (text : Text), site.stringify (rpcRequest id c.method c.params) = .ok text →
    site.platform.parse text = some (rpcRequest id c.method c.params)

/-- What the handler asks, and what it gets, in a longer run. -/
def handlerEnv (env : Env Hop.Answer) (tr : Trace Hop.Answer) : Env Outcome :=
  fun t q => env (tr ++ t.map (Prog.rename Hop.fetch)) (Hop.fetch q)

theorem run_handled {req : Proxy.HttpRequest} {env : Env Hop.Answer} {tr : Trace Hop.Answer}
    {result : Except Thrown Proxy.Response} {asked : Trace Outcome}
    (h : Async.exec (handlerEnv env tr) (Proxy.post site.platform site.rpcEnv req) [] =
      (result, asked)) :
    (site.handled req).run env tr =
      (.ok (site.readResult result), tr ++ asked.map (Prog.rename Hop.fetch)) := by
  have hembed := Prog.run_embed (B := Hop.Answer) Hop.fetch
    (Proxy.post site.platform site.rpcEnv req).run env tr []
  rw [List.map_nil, List.append_nil] at hembed
  have hrun : (Proxy.post site.platform site.rpcEnv req).run.run (handlerEnv env tr) [] =
      (result, asked) := h
  change _ = (((Proxy.post site.platform site.rpcEnv req).run.run (handlerEnv env tr) []).1,
    tr ++ ((Proxy.post site.platform site.rpcEnv req).run.run (handlerEnv env tr) []).2.map _) at hembed
  rw [hrun] at hembed
  rw [Site.handled, Prog.run_bind, hembed]
  rfl

theorem Exchanged.length_le {o : Except Thrown HttpResponse} {asked : Trace Hop.Answer}
    (h : Exchanged site nt c o asked) {bases : List Text}
    (hbases : upstreamBases site.rpcEnv c.network = .ok bases) :
    (fetches asked).length ≤ bases.length := by
  have hle := (h.in_turn bases hbases).length_le
  rwa [upstreams, List.length_map, List.length_map] at hle

end

/-! ## A height -/

namespace OneHeight

def method : Text := "boing_chainHeight"

def requestHead : Text := "\x7b\"jsonrpc\":\"2.0\",\"id\":"

def requestTail : Text := ",\"method\":\"boing_chainHeight\",\"params\":[]\x7d"

def answerText : Text := "\x7b\"jsonrpc\":\"2.0\",\"id\":7,\"result\":42\x7d"

/-- `JSON.stringify` of a request for the height. -/
def stringify (v : Value) : Text :=
  requestHead ++ ((match v.get "id" with
    | .number (.finite q) => intText ⌊q⌋
    | _ => []) ++ requestTail)

/-- `JSON.parse` of such a request, or of the answer. -/
def parse (s : Text) : Option Value :=
  let rest := s.drop requestHead.length
  if rest.dropWhile Char.isDigit = requestTail then
    some (rpcRequest (numeral 10 (rest.takeWhile Char.isDigit)) method [])
  else if s = answerText then
    some (.object [("jsonrpc", .string "2.0"), ("id", .number (.ofNat 7)), ("result", .number (.ofNat 42))])
  else none

def site : Site where
  platform := ⟨integersOnly, parse, fun v => .ok (stringify v), fun bytes => bytes.map Char.ofNat,
    ⟨true, [], []⟩⟩
  rpcEnv := ⟨none, none, none⟩
  stringify v := .ok (stringify v)
  statusText _ := []
  syntaxError := ⟨true, "SyntaxError", []⟩

def call : Call := ⟨.testnet, [], method, [], true⟩

theorem reads : site.Reads call := by
  rintro id _ ⟨⟩
  have hdigits := isDigits_decimal id
  have htext : stringify (rpcRequest id method []) = requestHead ++ (decimal id ++ requestTail) := by
    have hid : (rpcRequest id method []).get "id" = .number (.finite id) := rfl
    rw [stringify, hid]
    dsimp only
    rw [Int.floor_natCast]
    rfl
  have hcut : (decimal id ++ requestTail).takeWhile Char.isDigit = decimal id ∧
      (decimal id ++ requestTail).dropWhile Char.isDigit = requestTail := by
    rw [List.takeWhile_append_of_pos hdigits.2, List.dropWhile_append_of_pos hdigits.2]
    exact ⟨List.append_right_eq_self.mpr rfl, rfl⟩
  change parse (stringify (rpcRequest id method [])) = some (rpcRequest id method [])
  rw [htext, parse, List.drop_left, if_pos hcut.2, hcut.1, numeral_decimal]

def env : Env Hop.Answer := fun _ q =>
  match q with
  | .nextId => (7 : ℕ)
  | .sleep _ => ()
  | .pass _ => Passage.reached none
  | .fetch _ => .ok ⟨200, none, none, none, .ok (answerText.map Char.toNat)⟩

def gives (height : ℕ) : Except Failure Value → Bool
  | .ok (.number (.finite q)) => q = height
  | _ => false

theorem eq_of_gives {height : ℕ} {r : Except Failure Value} (h : gives height r = true) :
    r = .ok (.number (.ofNat height)) := by
  unfold gives at h
  split at h
  next q =>
    rw [of_decide_eq_true h]
    rfl
  next => cases h

theorem result : (Async.exec env (Async.handle site.serve (rpcCall integersOnly call)) []).1 =
    .ok (.number (.ofNat 42)) :=
  eq_of_gives (by decide +kernel)

end OneHeight

end BoingObserver.Rpc
