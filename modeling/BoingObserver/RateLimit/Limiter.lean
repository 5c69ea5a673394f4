import BoingObserver.Js.Map
import BoingObserver.Js.Text

/-!
# The in-memory rate limiter

`InMemoryRateLimiter` of `rate-limit.ts`: counters in one map, keyed by bucket and
client, each with the time its window ends.  The clock is in milliseconds.

* `check_fst`, `get_check_self`, `get_check_of_ne`: what a request does to the counters.
* `get_prune`: pruning deletes no running window while there is room.
* `entryKey_inj`: buckets do not share counters.
-/

namespace BoingObserver.RateLimit

open Js

/-! ## Rules -/

structure RateLimitRule where
  name : Text
  /-- Max requests per window per client. -/
  limit : ℕ
  windowSec : ℕ
  deriving DecidableEq

structure RateLimitResult where
  allowed : Bool
  limit : ℕ
  remaining : ℕ
  /-- Seconds until the window resets. -/
  retryAfterSec : ℤ
  deriving DecidableEq

def minute : ℕ := 60

def rpcRule : RateLimitRule := ⟨"rpc", 240, minute⟩

def heavyRule : RateLimitRule := ⟨"heavy", 60, minute⟩

def voteRule : RateLimitRule := ⟨"vote", 10, minute⟩

def reportRule : RateLimitRule := ⟨"report", 20, minute⟩

def defaultRule : RateLimitRule := ⟨"api", 120, minute⟩

/-- Routes that fan out to several upstream calls per request. -/
def heavyPrefixes : List Text :=
  ["/api/account/history", "/api/account/nfts", "/api/asset/profile", "/api/asset/metadata",
    "/api/asset/nft", "/api/asset/companions", "/api/tokens/index", "/api/contract/interface",
    "/api/dex/", "/api/blob/"]

def isHeavy (pathname : Text) : Bool :=
  heavyPrefixes.any fun p =>
    pathname = p || (if p.getLast? = some '/' then p else p ++ ['/']).isPrefixOf pathname

def baseRule (pathname : Text) : RateLimitRule :=
  if pathname = "/api/rpc" then rpcRule
  else if pathname = "/api/qa/vote" then voteRule
  else if pathname = "/api/csp-report" then reportRule
  else if isHeavy pathname then heavyRule
  else defaultRule

/-- The rule for an `/api/*` path; `scaled` is what multiplying a limit by the scale gives. -/
def ruleForPath (scaled : ℕ → ℕ) (pathname : Text) : Option RateLimitRule :=
  if ¬ ("/api/" : Text).isPrefixOf pathname then none
  else
    some { baseRule pathname with limit := max 1 (scaled (baseRule pathname).limit) }

/-! ## The limiter -/

structure Entry where
  count : ℕ
  resetAt : ℤ
  deriving DecidableEq

abbrev Entries : Type := Map Text Entry

def entryKey (rule : RateLimitRule) (key : Text) : Text := rule.name ++ ':' :: key

def Entry.running (now : ℤ) (e : Entry) : Bool := decide (now < e.resetAt)

def unexpired (now : ℤ) (entries : Entries) : Entries := entries.filter fun e => e.2.running now

/-- Make room: first the expired entries go, then the oldest insertions. -/
def prune (maxEntries : ℕ) (now : ℤ) (entries : Entries) : Entries :=
  if entries.size < maxEntries then entries
  else if (unexpired now entries).size < maxEntries then unexpired now entries
  else (unexpired now entries).dropOldest (max 1 ((maxEntries + 9) / 10))

/-- The entry a request is counted in, before it is counted, and the others. -/
def openEntry (maxEntries : ℕ) (entries : Entries) (key : Text) (rule : RateLimitRule) (now : ℤ) :
    Entry × Entries :=
  let fresh := (⟨0, now + rule.windowSec * 1000⟩, prune maxEntries now entries)
  match entries.get (entryKey rule key) with
  | none => fresh
  | some e => if e.resetAt ≤ now then fresh else (e, entries)

/-- `Math.ceil(ms / 1000)` -/
def ceilSec (ms : ℤ) : ℤ := -(-ms / 1000)

def resultOf (rule : RateLimitRule) (now : ℤ) (e : Entry) : RateLimitResult where
  allowed := e.count ≤ rule.limit
  limit := rule.limit
  remaining := rule.limit - e.count
  retryAfterSec := max 1 (ceilSec (e.resetAt - now))

def check (maxEntries : ℕ) (entries : Entries) (key : Text) (rule : RateLimitRule) (now : ℤ) :
    RateLimitResult × Entries :=
  let (e, entries) := openEntry maxEntries entries key rule now
  let e : Entry := { e with count := e.count + 1 }
  (resultOf rule now e, entries.set (entryKey rule key) e)

/-! ## Keys -/

/-- **Buckets do not share counters**, as their names have no colon. -/
theorem entryKey_inj {r r' : RateLimitRule} {c c' : Text} (h : ':' ∉ r.name) (h' : ':' ∉ r'.name)
    (heq : entryKey r c = entryKey r' c') : r.name = r'.name ∧ c = c' := by
  have hsplit : ∀ {s : Text} (c : Text), ':' ∉ s →
      (s ++ ':' :: c).takeWhile (· ≠ ':') = s ∧ (s ++ ':' :: c).dropWhile (· ≠ ':') = ':' :: c := by
    intro s c hs
    have hall : ∀ a ∈ s, (decide (a ≠ ':')) = true := by
      intro a ha
      exact decide_eq_true fun e => hs (e ▸ ha)
    rw [List.takeWhile_append_of_pos hall, List.dropWhile_append_of_pos hall]
    simp
  rw [entryKey, entryKey] at heq
  obtain ⟨ht, hd⟩ := hsplit c h
  obtain ⟨ht', hd'⟩ := hsplit c' h'
  rw [heq] at ht hd
  exact ⟨ht.symm.trans ht', List.tail_eq_of_cons_eq (hd.symm.trans hd')⟩

/-- Every path has a rule that the limiter can serve: a name without a colon, a limit and a window
of at least one. -/
theorem ruleForPath_valid {scaled : ℕ → ℕ} {pathname : Text} {rule : RateLimitRule}
    (h : ruleForPath scaled pathname = some rule) :
    ':' ∉ rule.name ∧ 1 ≤ rule.limit ∧ 1 ≤ rule.windowSec := by
  rw [ruleForPath] at h
  split at h
  · cases h
  · obtain rfl := Option.some.inj h
    have hbase : ':' ∉ (baseRule pathname).name ∧ 1 ≤ (baseRule pathname).windowSec := by
      rw [baseRule]
      split_ifs <;> decide
    exact ⟨hbase.1, Nat.le_max_left _ _, hbase.2⟩

/-! ## What a request does -/

theorem filter_running_filter {now t : ℤ} (ht : now ≤ t) (e : Option Entry) :
    (e.filter (·.running now)).filter (·.running t) = e.filter (·.running t) := by
  rw [Option.filter_filter]
  refine congrArg (fun p => Option.filter p e) ?_
  funext e
  rw [Entry.running, Entry.running]
  by_cases h : t < e.resetAt
  · rw [decide_eq_true h, decide_eq_true (ht.trans_lt h), Bool.and_self]
  · rw [decide_eq_false h, Bool.and_false]

/-- **Pruning deletes no running window** while there is room for one more. -/
theorem get_prune {maxEntries : ℕ} {now : ℤ} {entries : Entries} {k : Text}
    (hroom : (unexpired now entries).size < maxEntries) {t : ℤ} (ht : now ≤ t) :
    ((prune maxEntries now entries).get k).filter (·.running t) =
      (entries.get k).filter (·.running t) := by
  rw [prune, if_pos hroom]
  split
  · rfl
  · rw [unexpired, Map.get_filter]
    exact filter_running_filter ht _

theorem openEntry_fst (maxEntries : ℕ) (entries : Entries) (key : Text) (rule : RateLimitRule)
    (now : ℤ) :
    (openEntry maxEntries entries key rule now).1 =
      ((entries.get (entryKey rule key)).filter (·.running now)).getD
        ⟨0, now + rule.windowSec * 1000⟩ := by
  rw [openEntry]
  cases entries.get (entryKey rule key) with
  | none => rfl
  | some e =>
    by_cases h : e.resetAt ≤ now
    · have hrun : e.running now = false := decide_eq_false (not_lt.mpr h)
      rw [Option.filter_some, hrun]
      exact congrArg Prod.fst (if_pos h)
    · have hrun : e.running now = true := decide_eq_true (not_le.mp h)
      rw [Option.filter_some, hrun]
      exact congrArg Prod.fst (if_neg h)

def counted (maxEntries : ℕ) (entries : Entries) (key : Text) (rule : RateLimitRule) (now : ℤ) :
    Entry :=
  let e := (openEntry maxEntries entries key rule now).1
  { e with count := e.count + 1 }

theorem check_fst (maxEntries : ℕ) (entries : Entries) (key : Text) (rule : RateLimitRule)
    (now : ℤ) :
    (check maxEntries entries key rule now).1 =
      resultOf rule now (counted maxEntries entries key rule now) :=
  rfl

theorem get_check_self (maxEntries : ℕ) (entries : Entries) (key : Text) (rule : RateLimitRule)
    (now : ℤ) :
    (check maxEntries entries key rule now).2.get (entryKey rule key) =
      some (counted maxEntries entries key rule now) :=
  Map.get_set_self _ _ _

/-- **A request leaves the running windows of other keys alone.** -/
theorem get_check_of_ne {maxEntries : ℕ} {entries : Entries} {key : Text} {rule : RateLimitRule}
    {now : ℤ} {k : Text} (hk : k ≠ entryKey rule key)
    (hroom : (unexpired now entries).size < maxEntries) {t : ℤ} (ht : now ≤ t) :
    ((check maxEntries entries key rule now).2.get k).filter (·.running t) =
      (entries.get k).filter (·.running t) := by
  rw [check, Map.get_set_of_ne _ _ hk, openEntry]
  split
  next => exact get_prune hroom ht
  next e he =>
    split
    · exact get_prune hroom ht
    · rfl

end BoingObserver.RateLimit
