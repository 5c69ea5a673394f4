import BoingObserver.Edge.Csp
import BoingObserver.Http
import BoingObserver.Js.ToNumber
import BoingObserver.RateLimit.Law

/-!
# The edge middleware

`middleware.ts` with the rest of `rate-limit.ts`: every request under `/api/` is counted for its
client in the bucket of its path, and may be asked of a binding of the platform; every page gets
its policy.

* `memory_eq`, `serve_eq`: what the counters say, and what the middleware makes of it.
* `middleware_exact`: which requests of a client are let through, over whole runs.
-/

namespace BoingObserver.Edge

open Js Http RateLimit FixedWindow

/-! ## Requests -/

/-- `headers.get(name)` -/
abbrev Headers : Type := Text → Option Text

/-- `binding.limit({ key })`: whether the platform's own counter allows the request, or it throws. -/
abbrev BindingLimiter : Type := Text → Except Thrown Bool

structure Incoming where
  pathname : Text
  headers : Headers
  /-- `Date.now()` -/
  now : ℤ
  /-- The rate limiting bindings of the platform's `env`, when there is one. -/
  bindings : Option (Text → Option BindingLimiter)
  /-- What `crypto.getRandomValues` gives. -/
  random : List ℕ

/-- The variables of `process.env` that the middleware reads. -/
structure EdgeEnv where
  rateLimit : Option Text
  rateLimitScale : Option Text
  csp : Option Text

/-- `v?.trim()`, when that leaves something. -/
def trimmed (v : Option Text) : Option Text := (v.map trim).filter (· ≠ [])

/-- Best-effort client identity. -/
def clientKey (headers : Headers) : Text :=
  ((trimmed (headers "cf-connecting-ip")).or <|
    (trimmed (headers "x-real-ip")).or <|
      trimmed ((headers "x-forwarded-for").map fun s => (s.splitOn ',').headD [])).getD "unknown"

/-! ## Configuration -/

structure RateLimitConfig where
  enabled : Bool
  scale : ℚ

def rateLimitConfigFromEnv (env : EdgeEnv) : RateLimitConfig :=
  let mode := toLowerCase (trim (env.rateLimit.getD "on"))
  { enabled := mode ≠ "off" && mode ≠ "0" && mode ≠ "false"
    scale :=
      match stringToNumber (env.rateLimitScale.getD "1") with
      | .finite q => if 0 < q then q else 1
      | _ => 1 }

/-- `Math.floor(limit * scale)`; for an infinite product, a number that no count reaches. -/
def scaledLimit (scale : ℚ) (limit : ℕ) : ℕ :=
  match toDouble (limit * if 0 < scale then scale else 1) with
  | .finite q => ⌊q⌋.toNat
  | _ => 2 ^ 1024

/-- The rule a path is limited by; nothing when it is not limited. -/
def bucketOf (env : EdgeEnv) (pathname : Text) : Option RateLimitRule :=
  let cfg := rateLimitConfigFromEnv env
  if cfg.enabled then ruleForPath (scaledLimit cfg.scale) pathname else none

/-! ## One request -/

def bindingByRule (ruleName : Text) : Option Text :=
  if ruleName = "heavy" then some "API_RATE_LIMITER_HEAVY"
  else if ruleName = "vote" then some "API_RATE_LIMITER_VOTE"
  else none

def getBindingLimiter (bindings : Option (Text → Option BindingLimiter)) (ruleName : Text) :
    Option BindingLimiter := do
  let env ← bindings
  ((bindingByRule ruleName).bind env).or (env "API_RATE_LIMITER")

def denies (req : Incoming) (rule : RateLimitRule) : Bool :=
  match getBindingLimiter req.bindings rule.name with
  | none => false
  | some limit =>
    match limit (entryKey rule (clientKey req.headers)) with
    | .ok success => !success
    | .error _ => false

/-- What is answered to a request for which the counters say `result`. -/
def consult (req : Incoming) (rule : RateLimitRule) (result : RateLimitResult) : RateLimitResult :=
  if result.allowed && denies req rule then
    { result with allowed := false, remaining := 0, retryAfterSec := rule.windowSec }
  else result

def applyRateLimit (maxEntries : ℕ) (env : EdgeEnv) (entries : Entries) (req : Incoming) :
    Option RateLimitResult × Entries :=
  match bucketOf env req.pathname with
  | none => (none, entries)
  | some rule =>
    let (result, entries) := check maxEntries entries (clientKey req.headers) rule req.now
    (some (consult req rule result), entries)

/-- A response of the middleware: one of its own, or what goes on, with the headers that are set
on the request and on the response. -/
inductive Reply
  | json (status : ℕ) (body : Value) (headers : List (Text × Text))
  | next (requestHeaders headers : List (Text × Text))

def tooManyRequests (rl : RateLimitResult) : Reply :=
  .json 429
    (.object [("error", .string (("Too many requests. Try again in " : Text) ++
        intText rl.retryAfterSec ++ (" seconds." : Text))),
      ("code", .string "rate_limited")])
    [("Retry-After", intText rl.retryAfterSec), ("X-RateLimit-Limit", decimal rl.limit),
      ("X-RateLimit-Remaining", "0"), ("Cache-Control", "no-store")]

def apiReply : Option RateLimitResult → Reply
  | none => .next [] []
  | some rl =>
    if rl.allowed then
      .next [] [("X-RateLimit-Limit", decimal rl.limit), ("X-RateLimit-Remaining", decimal rl.remaining)]
    else tooManyRequests rl

def pageReply (env : EdgeEnv) (req : Incoming) : Reply :=
  let mode := parseCspMode env.csp
  let nonce := generateNonce req.random
  match cspHeaderName mode, buildCsp mode nonce with
  | some name, some csp => .next [("x-nonce", nonce), (name, csp)] [(name, csp)]
  | _, _ => .next [] []

def middleware (maxEntries : ℕ) (env : EdgeEnv) (entries : Entries) (req : Incoming) :
    Reply × Entries :=
  if ("/api/" : Text).isPrefixOf req.pathname then
    let (rl, entries) := applyRateLimit maxEntries env entries req
    (apiReply rl, entries)
  else (pageReply env req, entries)

def Reply.passes : Reply → Bool
  | .json _ _ _ => false
  | .next _ _ => true

/-! ## Runs -/

def serve (maxEntries : ℕ) (env : EdgeEnv) : Entries → List Incoming → List (Incoming × Reply)
  | _, [] => []
  | es, req :: rs =>
    (req, (middleware maxEntries env es req).1) ::
      serve maxEntries env (middleware maxEntries env es req).2 rs

def counts (env : EdgeEnv) (req : Incoming) : Option Request :=
  (bucketOf env req.pathname).map fun rule => ⟨clientKey req.headers, rule, req.now⟩

def memory (maxEntries : ℕ) (env : EdgeEnv) :
    Entries → List Incoming → List (Incoming × Option RateLimitResult)
  | _, [] => []
  | es, req :: rs =>
    match counts env req with
    | none => (req, none) :: memory maxEntries env es rs
    | some r =>
      (req, some (check maxEntries es r.client r.rule r.now).1) ::
        memory maxEntries env (after maxEntries es r) rs

/-- The reply to a request for which the counters say `m`. -/
def replyTo (env : EdgeEnv) (req : Incoming) (m : Option RateLimitResult) : Reply :=
  match bucketOf env req.pathname, m with
  | some rule, some result => apiReply (some (consult req rule result))
  | _, _ => if ("/api/" : Text).isPrefixOf req.pathname then .next [] [] else pageReply env req

/-! ## Buckets -/

section

variable {env : EdgeEnv} {pathname : Text} {rule : RateLimitRule}

theorem mem_baseRule (pathname : Text) :
    baseRule pathname ∈ [rpcRule, heavyRule, voteRule, reportRule, defaultRule] := by
  rw [baseRule]
  split_ifs <;> decide

theorem bucketOf_eq_some (h : bucketOf env pathname = some rule) :
    ("/api/" : Text).isPrefixOf pathname = true ∧ ∃ scaled : ℕ → ℕ,
      rule = { baseRule pathname with limit := max 1 (scaled (baseRule pathname).limit) } ∧
        scaled = scaledLimit (rateLimitConfigFromEnv env).scale := by
  rw [bucketOf] at h
  split at h
  · rw [ruleForPath] at h
    split at h
    · cases h
    next hapi => exact ⟨not_not.mp hapi, _, (Option.some.inj h).symm, rfl⟩
  · cases h

theorem windowMs_bucketOf (h : bucketOf env pathname = some rule) :
    rule.windowSec = 60 ∧ rule.windowMs = 60000 := by
  obtain ⟨-, scaled, rfl, -⟩ := bucketOf_eq_some h
  have hall : ∀ r ∈ [rpcRule, heavyRule, voteRule, reportRule, defaultRule], r.windowSec = 60 := by
    decide
  have hsec := hall (baseRule pathname) (mem_baseRule pathname)
  refine ⟨hsec, ?_⟩
  rw [RateLimitRule.windowMs, hsec]
  rfl

theorem no_colon_bucketOf (h : bucketOf env pathname = some rule) : ':' ∉ rule.name := by
  obtain ⟨-, scaled, rfl, -⟩ := bucketOf_eq_some h
  have hall : ∀ r ∈ [rpcRule, heavyRule, voteRule, reportRule, defaultRule], ':' ∉ r.name := by
    decide
  exact hall (baseRule pathname) (mem_baseRule pathname)

/-- Under one configuration a bucket has one rule. -/
theorem bucketOf_name_inj {pathname' : Text} {rule' : RateLimitRule}
    (h : bucketOf env pathname = some rule) (h' : bucketOf env pathname' = some rule')
    (hname : rule.name = rule'.name) : rule = rule' := by
  obtain ⟨-, scaled, rfl, hs⟩ := bucketOf_eq_some h
  obtain ⟨-, scaled', rfl, hs'⟩ := bucketOf_eq_some h'
  have hall : ∀ r ∈ [rpcRule, heavyRule, voteRule, reportRule, defaultRule],
      ∀ r' ∈ [rpcRule, heavyRule, voteRule, reportRule, defaultRule], r.name = r'.name → r = r' := by
    decide
  have hbase : baseRule pathname = baseRule pathname' :=
    hall _ (mem_baseRule pathname) _ (mem_baseRule pathname') hname
  rw [hs, hs', hbase]

end

/-! ## Memory and replies -/

section

variable {maxEntries : ℕ} {env : EdgeEnv}

theorem middleware_eq (maxEntries : ℕ) (env : EdgeEnv) (es : Entries) (req : Incoming) :
    middleware maxEntries env es req =
      match counts env req with
      | none => (replyTo env req none, es)
      | some r =>
        (replyTo env req (some (check maxEntries es r.client r.rule r.now).1),
          after maxEntries es r) := by
  rw [middleware, applyRateLimit, counts]
  cases hbucket : bucketOf env req.pathname with
  | none =>
    have hreply : replyTo env req none =
        if ("/api/" : Text).isPrefixOf req.pathname then .next [] [] else pageReply env req := by
      unfold replyTo
      rw [hbucket]
    rw [Option.map_none]
    dsimp only
    rw [hreply]
    split
    · rfl
    · rfl
  | some rule =>
    have hreply : ∀ result, replyTo env req (some result) =
        apiReply (some (consult req rule result)) := by
      intro result
      unfold replyTo
      rw [hbucket]
    rw [Option.map_some, if_pos (bucketOf_eq_some hbucket).1]
    dsimp only
    rw [hreply]
    rfl

/-- **What the middleware makes of what the counters say.** -/
theorem serve_eq (es : Entries) (rs : List Incoming) :
    serve maxEntries env es rs =
      (memory maxEntries env es rs).map fun p => (p.1, replyTo env p.1 p.2) := by
  induction rs generalizing es with
  | nil => rfl
  | cons req rs ih =>
    rw [serve, memory, middleware_eq, ih]
    cases counts env req with
    | none => rfl
    | some r => rfl

theorem map_fst_memory (es : Entries) (rs : List Incoming) :
    (memory maxEntries env es rs).map Prod.fst = rs := by
  induction rs generalizing es with
  | nil => rfl
  | cons req rs ih =>
    rw [memory]
    cases counts env req with
    | none => exact congrArg _ (ih _)
    | some r => exact congrArg _ (ih _)

/-- **What the counters say of one key** is what they say of it among the requests counted. -/
theorem memory_eq (es : Entries) (rs : List Incoming) (k : Text) :
    ((memory maxEntries env es rs).filter fun p => (counts env p.1).any fun r => r.key = k).map
        (fun p => (p.1.now, p.2)) =
      ((answers maxEntries es (rs.filterMap (counts env))).filter fun p => decide (p.1.key = k)).map
        fun p => (p.1.now, some p.2) := by
  induction rs generalizing es with
  | nil => rfl
  | cons req rs ih =>
    rw [memory]
    cases hreq : counts env req with
    | none =>
      rw [List.filterMap_cons_none hreq]
      dsimp only
      rw [List.filter_cons_of_neg (by simp [hreq]), ih]
    | some r =>
      have hnow : r.now = req.now := by
        obtain ⟨rule, -, rfl⟩ := Option.map_eq_some_iff.mp hreq
        rfl
      rw [List.filterMap_cons_some hreq, answers]
      dsimp only
      by_cases hk : r.key = k
      · rw [List.filter_cons_of_pos (by simp [hreq, hk]), List.filter_cons_of_pos (by simp [hk]),
          List.map_cons, List.map_cons, ih, hnow]
      · rw [List.filter_cons_of_neg (by simp [hreq, hk]), List.filter_cons_of_neg (by simp [hk]), ih]

end

/-! ## One client in one bucket -/

/-- A request of the client `key` in the bucket of `rule`. -/
def isFor (env : EdgeEnv) (rule : RateLimitRule) (key : Text) (req : Incoming) : Bool :=
  bucketOf env req.pathname = some rule && clientKey req.headers = key

section

variable {maxEntries : ℕ} {env : EdgeEnv} {rs : List Incoming} {pathname key : Text}
  {rule : RateLimitRule}

/-- Client and bucket are told apart by the key of their counter. -/
theorem counts_key_eq (hrule : bucketOf env pathname = some rule) (req : Incoming) :
    ((counts env req).any fun r => r.key = entryKey rule key) = isFor env rule key req := by
  rw [Bool.eq_iff_iff, isFor, Bool.and_eq_true, decide_eq_true_eq, decide_eq_true_eq, counts,
    Option.any_map, Option.any_eq_true]
  constructor
  · rintro ⟨rule', hrule', hk⟩
    obtain ⟨hname, hkey⟩ :=
      entryKey_inj (no_colon_bucketOf hrule') (no_colon_bucketOf hrule) (of_decide_eq_true hk)
    exact ⟨bucketOf_name_inj hrule' hrule hname ▸ hrule', hkey⟩
  · rintro ⟨hbucket, hkey⟩
    exact ⟨rule, hbucket, decide_eq_true (by rw [← hkey]; rfl)⟩

/-- **What the counters say of a client** is what fixed windows over its own requests say. -/
theorem memory_isFor (hrule : bucketOf env pathname = some rule)
    (hclock : rs.Pairwise fun r r' => r.now ≤ r'.now)
    (hroom : Roomy maxEntries Map.empty (rs.filterMap (counts env))) :
    ((memory maxEntries env Map.empty rs).filter fun p => isFor env rule key p.1).map
        (fun p => (p.1.now, p.2)) =
      (trail rule.windowMs none ((rs.filter (isFor env rule key)).map Incoming.now)).map
        fun q => (q.1, some (resultOf rule q.1 (ofWindow q.2))) := by
  have hnow : ∀ {req : Incoming} {r : Request}, counts env req = some r → r.now = req.now := by
    intro req r hreq
    obtain ⟨rule, -, rfl⟩ := Option.map_eq_some_iff.mp hreq
    rfl
  have hcounted : (rs.filterMap (counts env)).Pairwise fun r r' => r.now ≤ r'.now := by
    rw [List.pairwise_filterMap]
    refine hclock.imp ?_
    intro req req' hle r hr r' hr'
    rw [hnow hr, hnow hr']
    exact hle
  have hsame : ∀ r ∈ rs.filterMap (counts env), r.key = entryKey rule key → r.rule = rule := by
    intro r hr hk
    obtain ⟨req, -, hreq⟩ := List.mem_filterMap.mp hr
    obtain ⟨rule', hrule', rfl⟩ := Option.map_eq_some_iff.mp hreq
    exact bucketOf_name_inj hrule' hrule
      (entryKey_inj (no_colon_bucketOf hrule') (no_colon_bucketOf hrule) hk).1
  have htimes : ((rs.filterMap (counts env)).filter fun r => decide (r.key = entryKey rule key)).map
      Request.now = (rs.filter (isFor env rule key)).map Incoming.now := by
    clear hclock hroom hcounted hsame
    induction rs with
    | nil => rfl
    | cons req rs ih =>
      have hreq := @counts_key_eq env pathname key _ hrule req
      cases hc : counts env req with
      | none =>
        rw [hc] at hreq
        rw [List.filterMap_cons_none hc, List.filter_cons_of_neg (ne_true_of_eq_false hreq.symm), ih]
      | some r =>
        rw [hc, Option.any_some] at hreq
        rw [List.filterMap_cons_some hc, List.filter_cons, List.filter_cons, hreq]
        cases isFor env rule key req with
        | false => exact ih
        | true =>
          rw [if_pos rfl, if_pos rfl, List.map_cons, List.map_cons, ih, hnow hc]
  have hanswers := answers_filter (w := none) hcounted hsame hroom fun r _ => rfl
  have hmemory := @memory_eq maxEntries env Map.empty rs (entryKey rule key)
  simp only [counts_key_eq hrule] at hmemory
  rw [hmemory, ← htimes]
  have hpair := congrArg (List.map fun q : ℤ × RateLimitResult => (q.1, some q.2)) hanswers
  rw [List.map_map, List.map_map] at hpair
  exact hpair

theorem passes_apiReply (rl : RateLimitResult) : (apiReply (some rl)).passes = rl.allowed := by
  rw [apiReply]
  cases rl.allowed with
  | true => rfl
  | false => rfl

theorem allowed_consult (req : Incoming) (rule : RateLimitRule) (result : RateLimitResult) :
    (consult req rule result).allowed = (result.allowed && !denies req rule) := by
  rw [consult]
  cases hallowed : result.allowed with
  | false => exact hallowed
  | true =>
    cases denies req rule with
    | false => exact hallowed
    | true => rfl

theorem replyTo_eq {req : Incoming} (h : isFor env rule key req = true) (result : RateLimitResult) :
    replyTo env req (some result) = apiReply (some (consult req rule result)) := by
  rw [isFor, Bool.and_eq_true, decide_eq_true_eq] at h
  unfold replyTo
  rw [h.1]

theorem passes_of_bucketOf_eq_none {req : Incoming} (h : bucketOf env req.pathname = none)
    (m : Option RateLimitResult) : (replyTo env req m).passes = true := by
  unfold replyTo
  rw [h]
  dsimp only
  split
  · rfl
  · rw [pageReply]
    split
    · rfl
    · rfl

/-! ## One client in one bucket -/

def said (maxEntries : ℕ) (env : EdgeEnv) (rule : RateLimitRule) (key : Text) (rs : List Incoming) :
    List (Incoming × Option RateLimitResult) :=
  (memory maxEntries env Map.empty rs).filter fun p => isFor env rule key p.1

theorem serve_filter_eq : ((serve maxEntries env Map.empty rs).filter fun p =>
    isFor env rule key p.1) =
      (said maxEntries env rule key rs).map fun p => (p.1, replyTo env p.1 p.2) := by
  rw [serve_eq, List.filter_map]
  rfl

theorem map_fst_said : (said maxEntries env rule key rs).map Prod.fst =
    rs.filter (isFor env rule key) := by
  have hfst : rs.filter (isFor env rule key) = ((memory maxEntries env Map.empty rs).map
      Prod.fst).filter (isFor env rule key) := by rw [map_fst_memory]
  rw [hfst, List.filter_map]
  rfl

theorem pairwise_filter_now (hclock : rs.Pairwise fun r r' => r.now ≤ r'.now) :
    ((rs.filter (isFor env rule key)).map Incoming.now).Pairwise (· ≤ ·) :=
  List.pairwise_map.mpr (hclock.sublist List.filter_sublist)

section

variable (hrule : bucketOf env pathname = some rule)
  (hclock : rs.Pairwise fun r r' => r.now ≤ r'.now)
  (hroom : Roomy maxEntries Map.empty (rs.filterMap (counts env)))

include hrule hclock hroom

/-- What is said of a request is what its window says. -/
theorem window_of_said : ∀ p ∈ said maxEntries env rule key rs, isFor env rule key p.1 = true ∧
    ∃ w, p.2 = some (resultOf rule p.1.now (ofWindow w)) ∧
      (p.1.now, w) ∈ trail rule.windowMs none ((rs.filter (isFor env rule key)).map Incoming.now) := by
  intro p hp
  refine ⟨(List.mem_filter.mp hp).2, ?_⟩
  have hmem : (p.1.now, p.2) ∈ (said maxEntries env rule key rs).map fun p => (p.1.now, p.2) :=
    List.mem_map_of_mem hp
  rw [said, memory_isFor hrule hclock hroom] at hmem
  obtain ⟨⟨t, w⟩, hw, heq⟩ := List.mem_map.mp hmem
  obtain ⟨ht, hm⟩ := Prod.mk.inj heq
  dsimp only at ht hm
  rw [← ht]
  exact ⟨w, hm.symm, hw⟩

/-- A request passes that the counters allow and no binding denies. -/
theorem passes_of_said : ∀ p ∈ said maxEntries env rule key rs,
    (replyTo env p.1 p.2).passes = (p.2.any RateLimitResult.allowed && !denies p.1 rule) := by
  intro p hp
  obtain ⟨hfor, w, hw, -⟩ := window_of_said hrule hclock hroom p hp
  rw [hw, replyTo_eq hfor, passes_apiReply, allowed_consult]
  rfl

/-- The counters allow the first `limit` of each window. -/
theorem allowed_said : (said maxEntries env rule key rs).map
    (fun p => p.2.any RateLimitResult.allowed) =
      ((windows rule.windowMs ((rs.filter (isFor env rule key)).map Incoming.now)).flatMap
        places).map fun q => decide (q.2 ≤ rule.limit) := by
  have hallowed := congrArg (List.map fun q : ℤ × Option RateLimitResult =>
    q.2.any RateLimitResult.allowed) (@memory_isFor _ _ _ _ key _ hrule hclock hroom)
  rw [List.map_map, List.map_map] at hallowed
  rw [← trail_eq, List.map_map]
  exact hallowed

/-- **The first `limit` of each window pass** that no binding denies. -/
theorem passes_places :
    ((serve maxEntries env Map.empty rs).filter fun p => isFor env rule key p.1).map
        (fun p => p.2.passes) =
      List.zipWith (fun place req => decide (place ≤ rule.limit) && !denies req rule)
        (((windows rule.windowMs ((rs.filter (isFor env rule key)).map Incoming.now)).flatMap
          places).map Prod.snd) (rs.filter (isFor env rule key)) := by
  have hzip : List.zipWith (fun b (p : Incoming × Option RateLimitResult) => b && !denies p.1 rule)
      ((said maxEntries env rule key rs).map fun p => p.2.any RateLimitResult.allowed)
        (said maxEntries env rule key rs) =
      (said maxEntries env rule key rs).map fun p =>
        p.2.any RateLimitResult.allowed && !denies p.1 rule := by
    rw [List.zipWith_map_left, List.zipWith_self]
  rw [allowed_said hrule hclock hroom, List.zipWith_map_left] at hzip
  rw [serve_filter_eq, List.map_map, ← @map_fst_said maxEntries, List.zipWith_map]
  rw [map_fst_said]
  exact (List.map_congr_left (passes_of_said hrule hclock hroom)).trans hzip.symm

/-- **No window's length has more than twice the limit**, wherever it begins. -/
theorem countP_passes_le (a : ℤ) :
    ((serve maxEntries env Map.empty rs).filter fun p => isFor env rule key p.1).countP
      (fun p => decide (a ≤ p.1.now) && decide (p.1.now < a + rule.windowMs) && p.2.passes) ≤
        2 * rule.limit := by
  have htrail : (said maxEntries env rule key rs).map (fun p => (p.1.now, p.2)) = _ :=
    memory_isFor hrule hclock hroom
  have hcount := congrArg (List.countP fun q : ℤ × Option RateLimitResult =>
    decide (a ≤ q.1) && decide (q.1 < a + rule.windowMs) && q.2.any RateLimitResult.allowed) htrail
  rw [List.countP_map, List.countP_map] at hcount
  have hordered := @pairwise_filter_now env rs key rule hclock
  refine le_trans ?_ (allowed_le rule.windowMs a rule.limit hordered)
  rw [serve_filter_eq, List.countP_map, List.countP_map]
  refine le_trans (List.countP_mono_left fun p hp => ?_) hcount.le
  dsimp only [Function.comp_apply]
  rw [passes_of_said hrule hclock hroom p hp, ← Bool.and_assoc]
  exact fun h => ((Bool.and_eq_true _ _).mp h).1

/-- **A refused client waits** between a second and the length of the window. -/
theorem refused_waits (hsec : 1 ≤ rule.windowSec) :
    ∀ p ∈ (serve maxEntries env Map.empty rs).filter fun p => isFor env rule key p.1,
      p.2.passes = false → ∃ rl, p.2 = tooManyRequests rl ∧
        1 ≤ rl.retryAfterSec ∧ rl.retryAfterSec ≤ rule.windowSec := by
  intro p hp hdenied
  rw [serve_filter_eq] at hp
  obtain ⟨q, hq, rfl⟩ := List.mem_map.mp hp
  obtain ⟨hfor, w, hw, hmem⟩ := window_of_said hrule hclock hroom q hq
  dsimp only at hdenied ⊢
  rw [hw, replyTo_eq hfor] at hdenied ⊢
  rw [passes_apiReply] at hdenied
  refine ⟨consult q.1 rule (resultOf rule q.1.now (ofWindow w)), ?_, ?_⟩
  · rw [apiReply, hdenied]
    rfl
  · have hend := trail_resetAt_le _ none (pairwise_filter_now hclock) (fun v hv => nomatch hv) _ hmem
    have hwait : (resultOf rule q.1.now (ofWindow w)).retryAfterSec ≤ rule.windowSec :=
      retryAfterSec_le hsec hend
    rw [consult]
    split
    · dsimp only
      omega
    · exact ⟨le_max_left _ _, by omega⟩

end

theorem clientKey_of_edge {headers : Headers} {ip : Text}
    (h : trimmed (headers "cf-connecting-ip") = some ip) : clientKey headers = ip := by
  rw [clientKey, h]
  rfl

/-- **The middleware, for one client in one bucket**, over every run.  With its own requests cut
into windows of a minute, exactly those among the first `limit` of their window go on that no
binding denies; other clients, other buckets and bindings that throw change nothing.  No minute
has more than twice the limit of them; a request that is refused is told to wait between one second
and a minute; and whoever shows an address of the edge is counted under it, whatever else the
request says.  A request that is not limited goes on. -/
theorem middleware_exact (hrule : bucketOf env pathname = some rule)
    (hclock : rs.Pairwise fun r r' => r.now ≤ r'.now)
    (hroom : Roomy maxEntries Map.empty (rs.filterMap (counts env))) (key : Text) :
    let mine := rs.filter (isFor env rule key)
    let replies := (serve maxEntries env Map.empty rs).filter fun p => isFor env rule key p.1
    (∃ ws, IsSplit 60000 (mine.map Incoming.now) ws ∧
      replies.map (fun p => p.2.passes) =
        List.zipWith (fun place req => decide (place ≤ rule.limit) && !denies req rule)
          ((ws.flatMap places).map Prod.snd) mine) ∧
    (∀ a : ℤ, replies.countP (fun p => decide (a ≤ p.1.now) && decide (p.1.now < a + 60000) &&
      p.2.passes) ≤ 2 * rule.limit) ∧
    (∀ p ∈ replies, p.2.passes = false → ∃ rl, p.2 = tooManyRequests rl ∧
      1 ≤ rl.retryAfterSec ∧ rl.retryAfterSec ≤ 60) ∧
    (∀ req ∈ rs, ∀ ip, trimmed (req.headers "cf-connecting-ip") = some ip →
      clientKey req.headers = ip) ∧
    ∀ p ∈ serve maxEntries env Map.empty rs, bucketOf env p.1.pathname = none →
      p.2.passes = true := by
  intro mine replies
  obtain ⟨hsec, hms⟩ := windowMs_bucketOf hrule
  refine ⟨⟨windows 60000 (mine.map Incoming.now), isSplit_windows _ (pairwise_filter_now hclock), ?_⟩,
    ?_, ?_, fun _ _ _ h => clientKey_of_edge h, ?_⟩
  · rw [← hms]
    exact passes_places hrule hclock hroom
  · rw [← hms]
    exact countP_passes_le hrule hclock hroom
  · have hwaits := @refused_waits maxEntries env rs pathname key rule hrule hclock hroom (by omega)
    rwa [hsec] at hwaits
  · intro p hp hnone
    rw [serve_eq] at hp
    obtain ⟨q, -, rfl⟩ := List.mem_map.mp hp
    exact passes_of_bucketOf_eq_none hnone q.2

end

/-! ## Votes -/

section

def defaults : EdgeEnv := ⟨none, none, none⟩

/-- A vote of the client at `192.0.2.1`, when a binding of the platform says `verdict`. -/
def vote (now : ℤ) (verdict : Except Thrown Bool) : Incoming where
  pathname := "/api/qa/vote"
  headers name := if name = "cf-connecting-ip" then some " 192.0.2.1" else none
  now := now
  bindings := some fun name => if name = "API_RATE_LIMITER" then some fun _ => verdict else none
  random := []

/-- Three votes: the binding allows the first, denies the second and throws at the third. -/
def votes : List Incoming := [vote 0 (.ok true), vote 5 (.ok false), vote 9 (.error ⟨true, [], []⟩)]

theorem middleware_exact_votes :
    (∃ ws, IsSplit 60000 (votes.map Incoming.now) ws ∧
      ((serve 5000 defaults Map.empty votes).filter fun p =>
        isFor defaults voteRule "192.0.2.1" p.1).map (fun p => p.2.passes) =
        List.zipWith (fun place req => decide (place ≤ voteRule.limit) && !denies req voteRule)
          ((ws.flatMap places).map Prod.snd) votes) ∧
    ∀ a : ℤ, ((serve 5000 defaults Map.empty votes).filter fun p =>
      isFor defaults voteRule "192.0.2.1" p.1).countP (fun p => decide (a ≤ p.1.now) &&
        decide (p.1.now < a + 60000) && p.2.passes) ≤ 2 * voteRule.limit := by
  have hrule : bucketOf defaults "/api/qa/vote" = some voteRule := by decide +kernel
  have hclock : votes.Pairwise fun r r' => r.now ≤ r'.now := by decide +kernel
  have hcounts : votes.filterMap (counts defaults) =
      [⟨"192.0.2.1", voteRule, 0⟩, ⟨"192.0.2.1", voteRule, 5⟩, ⟨"192.0.2.1", voteRule, 9⟩] := by
    decide +kernel
  have hroom : Roomy 5000 Map.empty (votes.filterMap (counts defaults)) := by
    rw [hcounts]
    exact ⟨by decide +kernel, by decide +kernel, by decide +kernel, trivial⟩
  have hall : votes.filter (isFor defaults voteRule "192.0.2.1") = votes := by
    have hmine : ∀ req ∈ votes, isFor defaults voteRule "192.0.2.1" req = true := by decide +kernel
    exact List.filter_eq_self.mpr hmine
  have hlaw := middleware_exact hrule hclock hroom "192.0.2.1"
  dsimp only at hlaw
  rw [hall] at hlaw
  exact ⟨hlaw.1, hlaw.2.1⟩

end

/-- **A page gets its policy**, on the request and on the response, with a nonce of this request:
a browser reads the directives as they were written, and they allow the scripts of that nonce. -/
theorem middleware_page (maxEntries : ℕ) {env : EdgeEnv} (es : Entries) {req : Incoming}
    (hpage : ("/api/" : Text).isPrefixOf req.pathname = false) (hoff : parseCspMode env.csp ≠ .off)
    (hbytes : ∀ b ∈ req.random, b < 256) :
    ∃ name csp, middleware maxEntries env es req =
        (.next [("x-nonce", generateNonce req.random), (name, csp)] [(name, csp)], es) ∧
      (name = "Content-Security-Policy" ↔ parseCspMode env.csp = .nonceEnforce) ∧
      readDirectives csp = directives (parseCspMode env.csp) (generateNonce req.random) ∧
      (parseCspMode env.csp ≠ .reportOnly →
        ("'nonce-" : Text) ++ generateNonce req.random ++ ['\''] ∈
          sources (scriptDirective (parseCspMode env.csp) (generateNonce req.random))) := by
  have hplain := generateNonce_plain hbytes
  obtain ⟨name, hname⟩ : ∃ name, cspHeaderName (parseCspMode env.csp) = some name := by
    cases hmode : parseCspMode env.csp with
    | off => exact absurd hmode hoff
    | reportOnly => exact ⟨_, rfl⟩
    | nonceReportOnly => exact ⟨_, rfl⟩
    | nonceEnforce => exact ⟨_, rfl⟩
  obtain ⟨csp, hcsp⟩ : ∃ csp, buildCsp (parseCspMode env.csp) (generateNonce req.random) = some csp :=
    ⟨_, if_neg hoff⟩
  refine ⟨name, csp, ?_, ?_, ?_, ?_⟩
  · rw [middleware, if_neg (ne_true_of_eq_false hpage), pageReply]
    rw [hname, hcsp]
  · have hnames : ∀ mode name, cspHeaderName mode = some name →
        (name = "Content-Security-Policy" ↔ mode = .nonceEnforce) := by
      intro mode name h
      cases mode <;> cases h <;> decide
    exact hnames _ _ hname
  · exact readDirectives_buildCsp (fun hmem => (hplain _ hmem).1 rfl) hcsp
  · intro hmode
    rw [sources_scriptDirective hmode fun hmem => (hplain _ hmem).2 rfl]
    exact List.mem_cons_of_mem _ List.mem_cons_self

end BoingObserver.Edge
