import BoingObserver.Js.Text
import BoingObserver.PromiseCache

/-!
# The cache of RPC promises

`cachedRpc` of `rpc-cache.ts`, under calls, settlements, time and clearing in any
order.

* `size_run_le`: the cache stays bounded.
* `cachedRpc_law`: a call while an entry lives shares its promise; a failure drops
  its own entry only.
-/

namespace BoingObserver.Cache

open Js PromiseCache
open Overlap (run run_append AllAllowed allAllowed_nil allAllowed_cons run_invariant)

def rpcCacheMaxEntries : ℕ := 500

structure CacheEntry where
  expiresAt : ℤ
  promise : ℕ
  deriving DecidableEq

/-- First everything expired goes, then the oldest insertions. -/
def evictIfNeeded (now : ℤ) (rpcCache : Map Text CacheEntry) : Map Text CacheEntry :=
  if rpcCache.size < rpcCacheMaxEntries then rpcCache
  else
    let live := rpcCache.filter fun e => decide (now < e.2.expiresAt)
    live.dropOldest (live.size + 1 - rpcCacheMaxEntries)

theorem size_evictIfNeeded (now : ℤ) (m : Map Text CacheEntry) :
    (evictIfNeeded now m).size < rpcCacheMaxEntries := by
  rw [evictIfNeeded]
  split
  next h => exact h
  next =>
    rw [Map.size_dropOldest, rpcCacheMaxEntries]
    omega

theorem get_of_get_evictIfNeeded {now : ℤ} {m : Map Text CacheEntry} {k : Text} {e : CacheEntry}
    (h : (evictIfNeeded now m).get k = some e) : m.get k = some e := by
  rw [evictIfNeeded] at h
  split at h
  · exact h
  · have hlive := Map.get_dropOldest_of_some h
    rw [Map.get_filter] at hlive
    exact (Option.filter_eq_some_iff.mp hlive).1

/-- A call is given the time to live; the other operation is `clearRpcCache`. -/
def rpcCache : PromiseCache.Cache Text CacheEntry ℤ Unit where
  promise := CacheEntry.promise
  fresh now cached := decide (now < cached.expiresAt)
  prepare now key m := evictIfNeeded now (m.delete key)
  clock now _ := now
  entry now ttlMs id := ⟨now + ttlMs, id⟩
  -- Only drop our own entry; a newer load for the same key must survive.
  drops id cached := decide (cached.promise = id)
  op _ _ := Map.empty
  promise_entry _ _ _ := rfl
  get_of_get_prepare := by
    intro now key m k e h
    have hdel := get_of_get_evictIfNeeded h
    rw [Map.get_delete] at hdel
    split at hdel
    · cases hdel
    · exact hdel
  get_of_get_op := by
    intro _ m k e h
    cases h

abbrev RpcState : Type := State Text CacheEntry

/-- The promise a call returns; a load is started unless the entry of the key is fresh. -/
def cachedRpc (s : RpcState) (key : Text) (ttlMs : ℤ) : ℕ × RpcState := call rpcCache s key ttlMs

def rpcRun (now : ℤ) (events : List (Event Text ℤ Unit)) : RpcState :=
  run (step rpcCache) (State.initial now) events

/-! ## The bound -/

theorem size_step_le {s : RpcState} (h : s.entries.size ≤ rpcCacheMaxEntries)
    (ev : Event Text ℤ Unit) : (step rpcCache s ev).entries.size ≤ rpcCacheMaxEntries := by
  cases ev with
  | call key ttlMs =>
    rcases call_cases rpcCache s key ttlMs with ⟨e, -, -, hcall⟩ | ⟨-, hcall⟩
    · rw [step, hcall]
      exact h
    · rw [step, hcall]
      exact (Map.size_set_le _ _ _).trans (size_evictIfNeeded s.now (s.entries.delete key))
  | settle id ok =>
    rw [step]
    rcases settle_cases rpcCache s id ok with heq | ⟨key, -, heq⟩
    · rwa [heq]
    · rw [heq]
      cases ok with
      | true => exact h
      | false => exact (size_rejectEntry_le rpcCache s.entries key id).trans h
  | tick now => exact h
  | op _ => exact Nat.zero_le _

/-- **The cache never holds more than its bound.** -/
theorem size_run_le (now : ℤ) (events : List (Event Text ℤ Unit)) :
    (rpcRun now events).entries.size ≤ rpcCacheMaxEntries := by
  have hall : AllAllowed (step rpcCache) (fun _ _ => True) (State.initial now) events :=
    fun _ _ _ => trivial
  exact run_invariant (P := fun s => s.entries.size ≤ rpcCacheMaxEntries) (Nat.zero_le _)
    (fun _ ev h _ => size_step_le h ev) hall

/-! ## Sharing -/

theorem dropsOwn_rpcCache (s : RpcState) (ev : Event Text ℤ Unit) : DropsOwn rpcCache s ev :=
  fun _ _ _ _ _ hdrops => of_decide_eq_true hdrops

/-- **De-duplication over every run.**  The cache stays bounded.  A call returns the promise that is
then stored.  From any state on, while the entry of a key is not expired when the key is called, is
not evicted or cleared and its load has not failed, calls of the key return its promise and start
nothing.  A failure takes away the entry of the failed load at most, under the key of that load. -/
theorem cachedRpc_law (now : ℤ) (events : List (Event Text ℤ Unit)) :
    (rpcRun now events).entries.size ≤ rpcCacheMaxEntries ∧
    (∀ key ttlMs, ∃ e, (cachedRpc (rpcRun now events) key ttlMs).2.entries.get key = some e ∧
      e.promise = (cachedRpc (rpcRun now events) key ttlMs).1) ∧
    (∀ key e, (rpcRun now events).entries.get key = some e → ∀ later,
      AllAllowed (step rpcCache) (Kept rpcCache key e) (rpcRun now events) later →
        (rpcRun now (events ++ later)).now < e.expiresAt → ∀ ttlMs,
          cachedRpc (rpcRun now (events ++ later)) key ttlMs =
            (e.promise, rpcRun now (events ++ later))) ∧
    ∀ id key e, (rpcRun now events).entries.get key = some e →
      (step rpcCache (rpcRun now events) (.settle id false)).entries.get key ≠ some e →
        e.promise = id ∧ ((rpcRun now events).loads[id]?).map Load.key = some key := by
  refine ⟨size_run_le now events, fun key ttlMs => get_call rpcCache _ key ttlMs, ?_, ?_⟩
  · intro key e he later hlater hfresh ttlMs
    have hrun : rpcRun now (events ++ later) = run (step rpcCache) (rpcRun now events) later :=
      run_append _ _ _ _
    rw [hrun] at hfresh ⊢
    refine call_of_fresh (get_run_of_kept he ?_) (decide_eq_true hfresh) ttlMs
    exact fun earlier ev hp => ⟨hlater earlier ev hp, dropsOwn_rpcCache _ ev⟩
  · intro id key e he hgone
    have hid : e.promise = id := by
      by_contra hne
      refine hgone (get_settle_of_own he ?_ (dropsOwn_rpcCache _ _))
      rintro key' ⟨hev, -⟩
      exact hne (Event.settle.inj hev).1.symm
    exact ⟨hid, hid ▸ sound_run rpcCache now events key e he⟩

/-- A call shortly before the entry expires, another key and the load's success in between. -/
theorem cachedRpc_law_shared :
    cachedRpc (rpcRun 0 [.call "k" 1000, .call "x" 1000, .settle 0 true, .tick 999]) "k" 1000 =
      (0, rpcRun 0 [.call "k" 1000, .call "x" 1000, .settle 0 true, .tick 999]) := by
  refine (cachedRpc_law 0 [.call "k" 1000]).2.2.1 "k" ⟨1000, 0⟩ rfl
    [.call "x" 1000, .settle 0 true, .tick 999] ?_ (by decide) 1000
  refine allAllowed_cons ⟨?_, rfl⟩ (allAllowed_cons ⟨?_, trivial⟩
    (allAllowed_cons ⟨?_, trivial⟩ allAllowed_nil))
  all_goals
    rintro key ⟨hev, -⟩
    cases hev

end BoingObserver.Cache
