import BoingObserver.Js.ToNumber
import BoingObserver.Proxy.Route

/-!
# Failover of the RPC proxy

When the loop of `app/api/rpc/route.ts` goes on to the next upstream.

* `judge_moves_iff`: an upstream that fails is left for the next one, unless its answer
  declares a body that is too long.
* `failover_iff`: so it is in every run.
* `longPage_stops_failover`: an error page of more than 6 MiB ends the request.
-/

namespace BoingObserver.Proxy

open Js Http Rpc NativeUnit Oracle

/-! ## Failing upstreams -/

section

variable (p : Platform)

/-- The upstream failed: it was not reached in time, its body broke off, or it answered with a
status after which the next one is to be tried. -/
inductive Fails : Except Thrown Upstream → Prop
  | network (e : Thrown) : Fails (.error e)
  | body {u : Upstream} {e : Thrown} (h : u.body = .error e) : Fails (.ok u)
  | status {u : Upstream} (h : u.status ∈ failoverStatuses) : Fails (.ok u)

/-- The upstream answered, and declared a body of more than `MAX_RESPONSE_BYTES`. -/
def DeclaresTooLong (o : Except Thrown Upstream) : Prop :=
  ∃ u, o = .ok u ∧ isMoreThan (declaredLength p u) maxResponseBytes = true

/-- The loop goes on after an upstream that is not the last one. -/
def Moves (reqId : ℤ) (o : Except Thrown Upstream) : Prop :=
  ∀ r, o.bind (judge p reqId true) ≠ .ok (.respond r)

end

section

variable {p : Platform} {reqId : ℤ} {o : Except Thrown Upstream}

theorem not_ok_of_mem_failoverStatuses {u : Upstream} (h : u.status ∈ failoverStatuses) :
    u.ok = false := by
  have hall : ∀ status ∈ failoverStatuses, (200 ≤ status && status ≤ 299) = false := by decide
  exact hall u.status h

/-- **An upstream that fails is left for the next one**, unless it declares too long a body. -/
theorem judge_moves_iff (h : Fails o) : Moves p reqId o ↔ ¬ DeclaresTooLong p o := by
  cases o with
  | error e =>
    refine iff_of_true (fun r hr => by cases hr) ?_
    rintro ⟨u, hu, -⟩
    cases hu
  | ok u =>
    have hlong : DeclaresTooLong p (.ok u) ↔
        isMoreThan (declaredLength p u) maxResponseBytes = true := by
      constructor
      · rintro ⟨u', hu', h⟩
        obtain rfl := Except.ok.inj hu'
        exact h
      · exact fun h => ⟨u, rfl, h⟩
    rw [hlong]
    by_cases hdeclared : isMoreThan (declaredLength p u) maxResponseBytes = true
    · refine iff_of_false (fun hmoves => ?_) (not_not.mpr hdeclared)
      refine hmoves (rpcError reqId (-32000) (tooLargeDeclared p (declaredLength p u))) ?_
      change judge p reqId true u = _
      unfold judge
      exact if_pos hdeclared
    · refine iff_of_true (fun r hr => ?_) hdeclared
      change judge p reqId true u = _ at hr
      unfold judge at hr
      dsimp only at hr
      rw [if_neg hdeclared] at hr
      cases hbody : u.body with
      | error e =>
        rw [hbody] at hr
        cases hr
      | ok buf =>
        rw [hbody] at hr
        cases h with
        | body hfailed => cases hbody.symm.trans hfailed
        | status hstatus =>
          have hfailover : (!u.ok && (u.status ∈ failoverStatuses ||
              looksLikeCfChallenge u (p.decode buf)) && true) = true := by
            rw [not_ok_of_mem_failoverStatuses hstatus, decide_eq_true hstatus]
            rfl
          change (if _ then _ else _) = _ at hr
          rw [if_pos hfailover] at hr
          cases hr

end

/-! ## Runs -/

section

variable {env : Env Outcome} (p : Platform) (reqId : ℤ) (serialized : Text)

theorem exec_forward_cons (base next : Text) (rest : List Text) (last : Last) (tr : Trace Outcome) :
    let q : Fetch := ⟨upstreamUrl base, serialized⟩
    let run := Async.exec env (forward p reqId serialized (base :: next :: rest) last) tr
    (Moves p reqId (env tr q) ∧ ∃ last', run =
        Async.exec env (forward p reqId serialized (next :: rest) last') (tr ++ [⟨q, env tr q⟩])) ∨
      (¬ Moves p reqId (env tr q) ∧ ∃ r, run = (.ok r, tr ++ [⟨q, env tr q⟩])) := by
  intro q run
  have hrun : run = Async.exec env (forward p reqId serialized (base :: next :: rest) last) tr := rfl
  rw [forward, Async.exec_bind, Async.exec_attempt, exec_tryUpstream] at hrun
  have hmore : decide (next :: rest ≠ []) = true := by simp
  rw [hmore] at hrun
  cases hjudge : (env tr q).bind (judge p reqId true) with
  | error e =>
    refine Or.inl ⟨fun r hr => ?_, { last with error := networkError e }, ?_⟩
    · cases hjudge.symm.trans hr
    rw [hrun, hjudge]
    change Async.exec env (if _ then _ else _) _ = _
    rw [if_pos (List.cons_ne_nil next rest)]
  | ok verdict =>
    cases verdict with
    | failover status text =>
      refine Or.inl ⟨fun r hr => ?_, { last with status, text }, ?_⟩
      · cases hjudge.symm.trans hr
      rw [hrun, hjudge]
    | respond r =>
      refine Or.inr ⟨fun hmoves => hmoves r hjudge, r, ?_⟩
      rw [hrun, hjudge]
      rfl

theorem exec_forward_last (base : Text) (last : Last) (tr : Trace Outcome) :
    let q : Fetch := ⟨upstreamUrl base, serialized⟩
    (Async.exec env (forward p reqId serialized [base] last) tr).2 = tr ++ [⟨q, env tr q⟩] := by
  intro q
  rw [forward, Async.exec_bind, Async.exec_attempt, exec_tryUpstream]
  cases (env tr q).bind (judge p reqId (decide (([] : List Text) ≠ []))) with
  | error e => rfl
  | ok verdict => cases verdict <;> rfl

/-- The upstreams a run of the loop asks: the first one, and after one that fails, the next one
unless the answer declares too long a body. -/
structure FailsOver (bases : List Text) (asked : Trace Outcome) : Prop where
  first : ∀ base, bases.head? = some base →
    ∃ o, asked.head? = some ⟨⟨upstreamUrl base, serialized⟩, o⟩
  next : ∀ (i : ℕ) (q : Fetch) (o : Except Thrown Upstream) (base : Text),
    asked[i]? = some ⟨q, o⟩ → bases[i + 1]? = some base → Fails o →
      ((∃ o', asked[i + 1]? = some ⟨⟨upstreamUrl base, serialized⟩, o'⟩) ↔ ¬ DeclaresTooLong p o)

/-- **What the loop asks.** -/
theorem exec_forward_failsOver (bases : List Text) (last : Last) (tr : Trace Outcome) :
    ∃ asked, (Async.exec env (forward p reqId serialized bases last) tr).2 = tr ++ asked ∧
      FailsOver p serialized bases asked := by
  induction bases generalizing last tr with
  | nil =>
    refine ⟨[], (List.append_nil tr).symm, fun base h => ?_, fun i q o base h => ?_⟩
    · cases h
    · cases h
  | cons base rest ih =>
    set q : Fetch := ⟨upstreamUrl base, serialized⟩ with hq
    have hfirst : ∀ asked : Trace Outcome, ∀ base', (base :: rest).head? = some base' →
        ∃ o, (⟨q, env tr q⟩ :: asked).head? =
          some (⟨⟨upstreamUrl base', serialized⟩, o⟩ : Σ q, Outcome q) := by
      intro asked base' hbase
      obtain rfl := Option.some.inj hbase
      exact ⟨env tr q, rfl⟩
    cases rest with
    | nil =>
      refine ⟨[⟨q, env tr q⟩], exec_forward_last p reqId serialized base last tr, hfirst [], ?_⟩
      intro i q' o base' _ hbase
      cases hbase
    | cons next rest =>
      rcases exec_forward_cons p reqId serialized base next rest last tr with
        ⟨hmoves, last', hrun⟩ | ⟨hstays, r, hrun⟩
      · obtain ⟨asked, hasked, hover⟩ := ih last' (tr ++ [⟨q, env tr q⟩])
        refine ⟨⟨q, env tr q⟩ :: asked, ?_, hfirst asked, fun i q' o base' hi hbase hfail => ?_⟩
        · rw [hrun, hasked, List.append_assoc]
          rfl
        · cases i with
          | zero =>
            obtain rfl : next = base' := Option.some.inj hbase
            cases hi
            refine iff_of_true ?_ ((judge_moves_iff hfail).mp hmoves)
            obtain ⟨o', ho'⟩ := hover.first next rfl
            exact ⟨o', List.head?_eq_getElem?.symm.trans ho'⟩
          | succ i => exact hover.next i q' o base' hi hbase hfail
      · refine ⟨[⟨q, env tr q⟩], congrArg Prod.snd hrun, hfirst [],
          fun i q' o base' hi hbase hfail => ?_⟩
        cases i with
        | zero =>
          cases hi
          refine iff_of_false ?_ fun hlong => hstays ((judge_moves_iff hfail).mpr hlong)
          rintro ⟨o', ho'⟩
          cases ho'
        | succ i => cases hi

end

/-- **After an upstream that fails the next one is tried**, in every run, unless the one that
failed answered and declared a body of more than 6 MiB. -/
theorem failover_iff (p : Platform) (rpcEnv : RpcEnv) (req : HttpRequest) (env : Env Outcome)
    {bases : List Text} {request : ProxyRequest} (h : accept p rpcEnv req = .ok (bases, request))
    {i : ℕ} {q : Fetch} {o : Except Thrown Upstream} {next : Text}
    (hi : (Async.exec env (post p rpcEnv req) []).2[i]? = some ⟨q, o⟩)
    (hnext : bases[i + 1]? = some next) (hfail : Fails o) :
    (∃ serialized o', p.stringify request.toValue = .ok serialized ∧
        (Async.exec env (post p rpcEnv req) []).2[i + 1]? =
          some ⟨⟨upstreamUrl next, serialized⟩, o'⟩) ↔
      ¬ DeclaresTooLong p o := by
  cases hs : p.stringify request.toValue with
  | error e =>
    rw [exec_post_unserialized h hs] at hi
    cases hi
  | ok serialized =>
    obtain ⟨asked, hasked, hover⟩ := @exec_forward_failsOver env p request.id serialized bases
      ⟨0, [], []⟩ []
    have hpost : (Async.exec env (post p rpcEnv req) []).2 = asked := by
      rw [exec_post_serialized h hs]
      exact hasked
    rw [hpost] at hi ⊢
    rw [← hover.next i q o next hi hnext hfail]
    constructor
    · rintro ⟨serialized', o', heq, ho'⟩
      obtain rfl := Except.ok.inj heq
      exact ⟨o', ho'⟩
    · rintro ⟨o', ho'⟩
      exact ⟨serialized, o', rfl, ho'⟩

/-! ## An error page that is too long -/

def heightRequest : ProxyRequest := ⟨1, "boing_chainHeight", []⟩

def heightText : Text :=
  "\x7b\"jsonrpc\":\"2.0\",\"id\":1,\"method\":\"boing_chainHeight\",\"params\":[]\x7d"

def heightPlatform : Platform where
  numberText := withNumber integersOnly
  parse s := if s = heightText then some heightRequest.toValue else none
  stringify _ := .ok heightText
  decode bytes := bytes.map Char.ofNat
  noBody := ⟨true, "TypeError", "Invalid response status code 204"⟩

def plainEnv : RpcEnv := ⟨none, none, none⟩

def heightPost : HttpRequest := ⟨some "testnet", none, some heightText⟩

theorem accept_heightPost : accept heightPlatform plainEnv heightPost =
    .ok ([publicTestnetRpc, "https://boing-testnet-1.fly.dev"], heightRequest) := by
  rfl

def asked (o : Except Thrown Upstream) : Trace Outcome :=
  (Async.exec (fun _ _ => o) (post heightPlatform plainEnv heightPost) []).2

def heightFetch (base : Text) : Fetch := ⟨upstreamUrl base, heightText⟩

theorem asked_cases (o : Except Thrown Upstream) :
    (Moves heightPlatform 1 o ∧ asked o =
        [⟨heightFetch publicTestnetRpc, o⟩, ⟨heightFetch "https://boing-testnet-1.fly.dev", o⟩]) ∨
      (¬ Moves heightPlatform 1 o ∧ asked o = [⟨heightFetch publicTestnetRpc, o⟩]) := by
  rw [asked, exec_post_serialized accept_heightPost rfl]
  let env : Env Outcome := fun _ _ => o
  have hround := @exec_forward_cons env heightPlatform 1 heightText publicTestnetRpc
    "https://boing-testnet-1.fly.dev" [] ⟨0, [], []⟩ []
  rcases hround with ⟨hmoves, last, hrun⟩ | ⟨hstays, r, hrun⟩
  · refine Or.inl ⟨hmoves, (congrArg Prod.snd hrun).trans ?_⟩
    exact exec_forward_last heightPlatform 1 heightText _ last _
  · exact Or.inr ⟨hstays, congrArg Prod.snd hrun⟩

def badGateway (bytes : ℕ) : Upstream where
  status := 502
  contentLength := some (decimal bytes)
  cfMitigated := none
  contentType := some "text/html"
  body := .ok (List.replicate bytes 0x20)

theorem fails_badGateway (bytes : ℕ) : Fails (.ok (badGateway bytes)) :=
  .status (show 502 ∈ failoverStatuses by decide)

/-- A short error page: the next upstream is asked. -/
theorem failover_shortPage :
    ∃ serialized o', heightPlatform.stringify heightRequest.toValue = .ok serialized ∧
      (asked (.ok (badGateway 5)))[1]? =
        some ⟨⟨upstreamUrl "https://boing-testnet-1.fly.dev", serialized⟩, o'⟩ := by
  have hasked : (asked (.ok (badGateway 5)))[0]? =
      some ⟨heightFetch publicTestnetRpc, .ok (badGateway 5)⟩ := by
    rcases asked_cases (.ok (badGateway 5)) with ⟨-, h⟩ | ⟨-, h⟩
    · rw [h]
      rfl
    · rw [h]
      rfl
  refine (failover_iff heightPlatform plainEnv heightPost (fun _ _ => .ok (badGateway 5))
    accept_heightPost hasked rfl (fails_badGateway 5)).mpr ?_
  rintro ⟨u, hu, hlong⟩
  obtain rfl := Except.ok.inj hu
  revert hlong
  decide +kernel

/-- **An error page of 7,000,000 bytes ends the request**: the first upstream fails with status 502,
and the second is not tried. -/
theorem longPage_stops_failover :
    accept heightPlatform plainEnv heightPost =
        .ok ([publicTestnetRpc, "https://boing-testnet-1.fly.dev"], heightRequest) ∧
      Fails (.ok (badGateway 7000000)) ∧
      asked (.ok (badGateway 7000000)) =
        [⟨heightFetch publicTestnetRpc, .ok (badGateway 7000000)⟩] := by
  refine ⟨accept_heightPost, fails_badGateway 7000000, ?_⟩
  have hstays : ¬ Moves heightPlatform 1 (.ok (badGateway 7000000)) := by
    rw [judge_moves_iff (fails_badGateway 7000000), not_not]
    exact ⟨_, rfl, by decide +kernel⟩
  rcases asked_cases (.ok (badGateway 7000000)) with ⟨hmoves, -⟩ | ⟨-, h⟩
  · exact absurd hmoves hstays
  · exact h

end BoingObserver.Proxy
