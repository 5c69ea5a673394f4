import BoingObserver.FixedWindow
import BoingObserver.RateLimit.Limiter

/-!
# The law of the rate limiter

What a client gets in a bucket over a whole run of requests, other clients and
buckets in between.  The clock does not go back and the running windows leave room.

* `answers_filter`: the answers for one key are those of fixed windows over its own requests.
* `window_law`: exactly the first `limit` requests of each window are allowed.
-/

namespace BoingObserver.RateLimit

open Js FixedWindow

structure Request where
  client : Text
  rule : RateLimitRule
  now : ℤ
  deriving DecidableEq

namespace Request

def key (r : Request) : Text := entryKey r.rule r.client

def sameAs (r₀ r : Request) : Bool := r.rule.name = r₀.rule.name && r.client = r₀.client

end Request

def RateLimitRule.windowMs (rule : RateLimitRule) : ℤ := rule.windowSec * 1000

def after (maxEntries : ℕ) (entries : Entries) (r : Request) : Entries :=
  (check maxEntries entries r.client r.rule r.now).2

def answers (maxEntries : ℕ) : Entries → List Request → List (Request × RateLimitResult)
  | _, [] => []
  | es, r :: rs =>
    (r, (check maxEntries es r.client r.rule r.now).1) :: answers maxEntries (after maxEntries es r) rs

/-- At each request there are fewer than `maxEntries` running windows. -/
def Roomy (maxEntries : ℕ) : Entries → List Request → Prop
  | _, [] => True
  | es, r :: rs =>
    (unexpired r.now es).size < maxEntries ∧ Roomy maxEntries (after maxEntries es r) rs

structure Admissible (maxEntries : ℕ) (rs : List Request) : Prop where
  clock : rs.Pairwise fun r r' => r.now ≤ r'.now
  no_colon : ∀ r ∈ rs, ':' ∉ r.rule.name
  fixed : ∀ r ∈ rs, ∀ r' ∈ rs, r.rule.name = r'.rule.name → r.rule = r'.rule
  positive : ∀ r ∈ rs, 1 ≤ r.rule.limit ∧ 1 ≤ r.rule.windowSec
  room : Roomy maxEntries Map.empty rs

/-! ## One key -/

def ofWindow (w : Window ℤ) : Entry := ⟨w.count, w.resetAt⟩

/-- An entry and a window that are running at `now` are the same. -/
def Agrees (now : ℤ) (e : Option Entry) (w : Option (Window ℤ)) : Prop :=
  e.filter (·.running now) = (w.map ofWindow).filter (·.running now)

theorem ofWindow_next (W : ℤ) (w : Option (Window ℤ)) (t : ℤ) :
    ofWindow (next W w t) =
      let e := ((w.map ofWindow).filter (·.running t)).getD ⟨0, t + W⟩
      { e with count := e.count + 1 } := by
  cases w with
  | none => rfl
  | some w =>
    rw [next, Option.map_some, Option.filter_some]
    by_cases h : w.resetAt ≤ t
    · have hrun : (ofWindow w).running t = false := decide_eq_false (not_lt.mpr h)
      rw [if_pos h, hrun]
      rfl
    · have hrun : (ofWindow w).running t = true := decide_eq_true (not_le.mp h)
      rw [if_neg h, hrun]
      rfl

theorem counted_eq {maxEntries : ℕ} {es : Entries} {r : Request} {w : Option (Window ℤ)}
    (h : Agrees r.now (es.get r.key) w) :
    counted maxEntries es r.client r.rule r.now = ofWindow (next r.rule.windowMs w r.now) := by
  rw [ofWindow_next, ← h, counted, openEntry_fst]
  rfl

/-- **The answers for one key** are those of fixed windows over its own requests. -/
theorem answers_filter {maxEntries : ℕ} {k : Text} {rule : RateLimitRule} {rs : List Request}
    {es : Entries} {w : Option (Window ℤ)}
    (hclock : rs.Pairwise fun r r' => r.now ≤ r'.now)
    (hrule : ∀ r ∈ rs, r.key = k → r.rule = rule) (hroom : Roomy maxEntries es rs)
    (hagree : ∀ r ∈ rs, Agrees r.now (es.get k) w) :
    ((answers maxEntries es rs).filter fun p => decide (p.1.key = k)).map
        (fun p => (p.1.now, p.2)) =
      (trail rule.windowMs w
        ((rs.filter fun r => decide (r.key = k)).map Request.now)).map
          fun p => (p.1, resultOf rule p.1 (ofWindow p.2)) := by
  induction rs generalizing es w with
  | nil => rfl
  | cons r rs ih =>
    obtain ⟨hr, hclock⟩ := List.pairwise_cons.mp hclock
    have hrule' : ∀ r' ∈ rs, r'.key = k → r'.rule = rule := fun r' hr' =>
      hrule r' (List.mem_cons_of_mem r hr')
    rw [answers]
    by_cases hk : r.key = k
    · subst hk
      obtain rfl := hrule r List.mem_cons_self rfl
      have hcount : counted maxEntries es r.client r.rule r.now =
          ofWindow (next r.rule.windowMs w r.now) := counted_eq (hagree r List.mem_cons_self)
      have hnext : ∀ r' ∈ rs, Agrees r'.now ((after maxEntries es r).get r.key)
          (some (next r.rule.windowMs w r.now)) := by
        intro r' _
        rw [after, Request.key, get_check_self, hcount]
        rfl
      rw [List.filter_cons_of_pos (by simp), List.filter_cons_of_pos (by simp), List.map_cons,
        List.map_cons, trail, List.map_cons, ih hclock hrule' hroom.2 hnext, check_fst, hcount]
    · have hnext : ∀ r' ∈ rs, Agrees r'.now ((after maxEntries es r).get k) w := by
        intro r' hr'
        have hother := get_check_of_ne (Ne.symm hk) hroom.1 (hr r' hr')
        exact hother.trans (hagree r' (List.mem_cons_of_mem r hr'))
      rw [List.filter_cons_of_neg (by simpa using hk), List.filter_cons_of_neg (by simpa using hk)]
      exact ih hclock hrule' hroom.2 hnext

/-! ## The law -/

def timesOf (rs : List Request) (r₀ : Request) : List ℤ := (rs.filter r₀.sameAs).map Request.now

def answersOf (maxEntries : ℕ) (rs : List Request) (r₀ : Request) : List (ℤ × RateLimitResult) :=
  ((answers maxEntries Map.empty rs).filter fun p => r₀.sameAs p.1).map fun p => (p.1.now, p.2)

theorem fst_mem_of_mem_answers {maxEntries : ℕ} {rs : List Request} {es : Entries}
    {p : Request × RateLimitResult} (hp : p ∈ answers maxEntries es rs) : p.1 ∈ rs := by
  induction rs generalizing es with
  | nil => cases hp
  | cons r rs ih =>
    rcases List.mem_cons.mp hp with rfl | hp
    · exact List.mem_cons_self
    · exact List.mem_cons_of_mem r (ih hp)

theorem sameAs_eq {r₀ r : Request} (h₀ : ':' ∉ r₀.rule.name) (h : ':' ∉ r.rule.name) :
    r₀.sameAs r = decide (r.key = r₀.key) := by
  by_cases hk : r.key = r₀.key
  · obtain ⟨hn, hc⟩ := entryKey_inj h h₀ hk
    rw [Request.sameAs, decide_eq_true hn, decide_eq_true hc, decide_eq_true hk, Bool.and_self]
  · rw [decide_eq_false hk, ← Bool.not_eq_true, Request.sameAs, Bool.and_eq_true, decide_eq_true_eq,
      decide_eq_true_eq]
    rintro ⟨hn, hc⟩
    exact hk (by rw [Request.key, Request.key, entryKey, entryKey, hn, hc])

theorem answersOf_eq {maxEntries : ℕ} {rs : List Request} (h : Admissible maxEntries rs)
    {r₀ : Request} (hr₀ : r₀ ∈ rs) :
    answersOf maxEntries rs r₀ =
      (trail r₀.rule.windowMs none (timesOf rs r₀)).map
        fun p => (p.1, resultOf r₀.rule p.1 (ofWindow p.2)) := by
  have hname := h.no_colon r₀ hr₀
  have hsame : rs.filter r₀.sameAs = rs.filter fun r => decide (r.key = r₀.key) :=
    List.filter_congr fun r hr => sameAs_eq hname (h.no_colon r hr)
  have hsame' : (answers maxEntries Map.empty rs).filter (fun p => r₀.sameAs p.1) =
      (answers maxEntries Map.empty rs).filter fun p => decide (p.1.key = r₀.key) :=
    List.filter_congr fun p hp => sameAs_eq hname (h.no_colon p.1 (fst_mem_of_mem_answers hp))
  rw [answersOf, timesOf, hsame, hsame']
  refine answers_filter h.clock ?_ h.room fun r _ => rfl
  intro r hr hk
  exact h.fixed r hr r₀ hr₀ (entryKey_inj (h.no_colon r hr) hname hk).1

theorem timesOf_pairwise {maxEntries : ℕ} {rs : List Request} (h : Admissible maxEntries rs)
    (r₀ : Request) : (timesOf rs r₀).Pairwise (· ≤ ·) :=
  List.pairwise_map.mpr (h.clock.sublist List.filter_sublist)

/-- `Math.ceil` of a time up to a number of seconds is at most that number. -/
theorem retryAfterSec_le {rule : RateLimitRule} (h : 1 ≤ rule.windowSec) {now : ℤ} {e : Entry}
    (he : e.resetAt ≤ now + rule.windowMs) :
    (resultOf rule now e).retryAfterSec ≤ rule.windowSec := by
  rw [RateLimitRule.windowMs] at he
  refine max_le (by exact_mod_cast h) ?_
  rw [ceilSec]
  omega

/-- **The law of fixed windows.**  In every admissible run, for every client in a bucket, exactly
the first `limit` requests of each of its windows are allowed; the answers are the same with any
other requests around them; the time to wait is between one second and the window; and no
interval of the length of a window has more than twice the limit of allowed requests. -/
theorem window_law {maxEntries : ℕ} {rs : List Request} (h : Admissible maxEntries rs)
    {r₀ : Request} (hr₀ : r₀ ∈ rs) :
    (∃ ws, IsSplit r₀.rule.windowMs (timesOf rs r₀) ws ∧
      (answersOf maxEntries rs r₀).map (fun p => (p.1, p.2.allowed)) =
        ws.flatMap fun w => (places w).map fun p => (p.1, decide (p.2 ≤ r₀.rule.limit))) ∧
    (∀ (maxEntries' : ℕ) (rs' : List Request), Admissible maxEntries' rs' →
      rs'.filter r₀.sameAs = rs.filter r₀.sameAs →
        answersOf maxEntries' rs' r₀ = answersOf maxEntries rs r₀) ∧
    (∀ p ∈ answersOf maxEntries rs r₀,
      1 ≤ p.2.retryAfterSec ∧ p.2.retryAfterSec ≤ r₀.rule.windowSec) ∧
    ∀ a : ℤ, (answersOf maxEntries rs r₀).countP
      (fun p => decide (a ≤ p.1) && decide (p.1 < a + r₀.rule.windowMs) && p.2.allowed) ≤
        2 * r₀.rule.limit := by
  have hts := timesOf_pairwise h r₀
  refine ⟨⟨windows r₀.rule.windowMs (timesOf rs r₀), isSplit_windows _ hts, ?_⟩, ?_, ?_, ?_⟩
  · rw [answersOf_eq h hr₀, ← List.map_flatMap, ← trail_eq, List.map_map, List.map_map]
    rfl
  · intro maxEntries' rs' h' hrs
    have hr₀' : r₀ ∈ rs' := by
      have hself : r₀.sameAs r₀ = true := by simp [Request.sameAs]
      exact List.mem_of_mem_filter (hrs ▸ List.mem_filter.mpr ⟨hr₀, hself⟩)
    rw [answersOf_eq h hr₀, answersOf_eq h' hr₀', timesOf, timesOf, hrs]
  · intro p hp
    rw [answersOf_eq h hr₀] at hp
    obtain ⟨⟨t, w⟩, hw, rfl⟩ := List.mem_map.mp hp
    refine ⟨le_max_left _ _, retryAfterSec_le (h.positive r₀ hr₀).2 ?_⟩
    exact trail_resetAt_le _ none hts (fun v hv => nomatch hv) (t, w) hw
  · intro a
    refine le_trans (le_of_eq ?_) (allowed_le r₀.rule.windowMs a r₀.rule.limit hts)
    rw [answersOf_eq h hr₀, List.countP_map, List.countP_map]
    rfl

/-- Two clients of a bucket with one request a second. -/
theorem window_law_two_clients :
    let bucket : RateLimitRule := ⟨"t", 1, 1⟩
    let r₀ : Request := ⟨"a", bucket, 0⟩
    let rs : List Request := [r₀, ⟨"b", bucket, 400⟩, ⟨"a", bucket, 900⟩]
    (∃ ws, IsSplit bucket.windowMs (timesOf rs r₀) ws ∧
      (answersOf 3 rs r₀).map (fun p => (p.1, p.2.allowed)) =
        ws.flatMap fun w => (places w).map fun p => (p.1, decide (p.2 ≤ 1))) ∧
    (∀ p ∈ answersOf 3 rs r₀, 1 ≤ p.2.retryAfterSec ∧ p.2.retryAfterSec ≤ 1) ∧
    ∀ a : ℤ, (answersOf 3 rs r₀).countP
      (fun p => decide (a ≤ p.1) && decide (p.1 < a + bucket.windowMs) && p.2.allowed) ≤ 2 * bucket.limit := by
  intro bucket r₀ rs
  have h : Admissible 3 rs :=
    ⟨by decide, by decide, by decide, by decide, ⟨by decide, by decide, by decide, trivial⟩⟩
  have hlaw := window_law h (show r₀ ∈ rs by decide)
  exact ⟨hlaw.1, hlaw.2.2.1, hlaw.2.2.2⟩

end BoingObserver.RateLimit
