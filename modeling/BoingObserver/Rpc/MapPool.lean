import BoingObserver.Js.Value
import BoingObserver.WorkerPool
import Mathlib.Algebra.Order.Floor.Semiring
import Mathlib.Data.Rat.Floor

/-!
# Mapping with bounded concurrency

`mapPool` of `rpc-methods.ts`: `fn` is called for each item by a pool of workers.  A
call may be answered or rejected; a rejected call ends its worker, and the other
workers go on.

* `counted_run`: each item is called at most once, and no more calls are in flight
  than there are workers.
* `working_run_of_answered`: while no call is rejected the workers go on to the end.
* `mapPool_exact_iff`: the pool calls every item once and keeps its results in place
  iff the concurrency is a number, or there are no items.
-/

namespace BoingObserver.Rpc

open Js WorkerPool
open Overlap (run AllAllowed run_invariant allAllowed_nil run_concat)

/-! ## The number of workers -/

/-- `Math.min(x, n)` -/
def minNat (x : Number) (n : ℕ) : Number :=
  match x with
  | .finite q => .finite (min q n)
  | .nan => .nan
  | .infinite negative => if negative then .infinite true else .ofNat n

/-- `Math.max(1, x)` -/
def atLeastOne : Number → Number
  | .finite q => .finite (max 1 q)
  | .nan => .nan
  | .infinite negative => if negative then .ofNat 1 else .infinite false

/-- The length an array is made with: the integer part, and none for `NaN`. -/
def toLength : Number → ℕ
  | .finite q => min ⌊q⌋.toNat (2 ^ 53 - 1)
  | .nan => 0
  | .infinite negative => if negative then 0 else 2 ^ 53 - 1

/-- `k > x` -/
def Exceeds (k : ℕ) : Number → Prop
  | .finite q => q < k
  | .nan => False
  | .infinite negative => negative

/-- `Math.max(1, Math.min(concurrency, items.length || 1))`, as a length. -/
def poolWorkers (concurrency : Number) (count : ℕ) : ℕ :=
  toLength (atLeastOne (minNat concurrency (if count = 0 then 1 else count)))

/-- The bound on the calls in flight: `max(1, min(concurrency, count))`. -/
def poolBound (concurrency : Number) (count : ℕ) : Number :=
  atLeastOne (minNat concurrency count)

theorem one_le_poolWorkers {concurrency : Number} (h : concurrency ≠ .nan) (count : ℕ) :
    1 ≤ poolWorkers concurrency count := by
  have hfinite (q : ℚ) : 1 ≤ toLength (.finite (max 1 q)) := by
    have hfloor : (1 : ℤ) ≤ ⌊max 1 q⌋ := Int.le_floor.mpr (by simp)
    change 1 ≤ min ⌊max 1 q⌋.toNat (2 ^ 53 - 1)
    omega
  rw [poolWorkers]
  cases concurrency with
  | nan => exact absurd rfl h
  | finite q => exact hfinite _
  | infinite negative =>
    cases negative with
    | true => exact hfinite 0
    | false => exact hfinite _

theorem poolWorkers_ofNat {concurrency : ℕ} (h : concurrency < 2 ^ 53) (count : ℕ) :
    poolWorkers (.ofNat concurrency) count =
      max 1 (min concurrency (if count = 0 then 1 else count)) := by
  generalize hk : (if count = 0 then 1 else count) = k
  have hcast : max 1 (min (concurrency : ℚ) (k : ℚ)) = ((max 1 (min concurrency k) : ℕ) : ℚ) := by
    push_cast
    rfl
  rw [poolWorkers, hk]
  change min ⌊max 1 (min (concurrency : ℚ) (k : ℚ))⌋.toNat (2 ^ 53 - 1) = _
  rw [hcast, Int.floor_natCast, Int.toNat_natCast]
  omega

theorem not_exceeds_poolBound {concurrency : Number} {count k : ℕ} (hcount : 0 < count)
    (hk : k ≤ poolWorkers concurrency count) : ¬ Exceeds k (poolBound concurrency count) := by
  have hfinite (q : ℚ) (hq : k ≤ toLength (.finite (max 1 q))) :
      ¬ Exceeds k (.finite (max 1 q)) := by
    have hfloor : (k : ℤ) ≤ ⌊max 1 q⌋ := by
      have hpos : (0 : ℤ) ≤ ⌊max 1 q⌋ := Int.floor_nonneg.mpr (by simp)
      change k ≤ min ⌊max 1 q⌋.toNat (2 ^ 53 - 1) at hq
      omega
    change ¬ max 1 q < (k : ℚ)
    rw [not_lt]
    exact_mod_cast Int.le_floor.mp hfloor
  rw [poolWorkers, if_neg (by omega)] at hk
  rw [poolBound]
  cases concurrency with
  | nan => exact id
  | finite q => exact hfinite _ hk
  | infinite negative =>
    cases negative with
    | true =>
      have hone : k ≤ toLength (.finite (max 1 0)) := hk
      exact hfinite 0 hone
    | false => exact hfinite _ hk

/-! ## The pool -/

section

variable {α β : Type}

/-- The pool for some items, with the first calls made. -/
def mapPool (items : List α) (concurrency : Number) : Pool β :=
  start items.length (poolWorkers concurrency items.length)

/-- A call ends: with a value its worker goes on, with a rejection its worker ends. -/
def settleCall (count : ℕ) (s : Pool β) (e : ℕ × Except JsError β) : Pool β :=
  match e.2 with
  | .ok b => settle count s (e.1, b)
  | .error _ => if e.1 ∈ s.inFlight then { s with inFlight := s.inFlight.erase e.1 } else s

/-- A call in flight ends as `fn` does for its item. -/
def Settled (items : List α) (fn : α → ℕ → Except JsError β) (s : Pool β)
    (e : ℕ × Except JsError β) : Prop :=
  e.1 ∈ s.inFlight ∧ items[e.1]?.map (fun a => fn a e.1) = some e.2

def MapRun (items : List α) (concurrency : Number) (fn : α → ℕ → Except JsError β)
    (events : List (ℕ × Except JsError β)) : Prop :=
  AllAllowed (settleCall items.length) (Settled items fn) (mapPool items concurrency) events

def afterRun (items : List α) (concurrency : Number) (events : List (ℕ × Except JsError β)) :
    Pool β :=
  run (settleCall items.length) (mapPool items concurrency) events

def Rejected (e : ℕ × Except JsError β) : Prop := ∃ error, e.2 = .error error

/-- The state after a run: no item is called twice, the calls in flight keep to the bound, and
when none is left every item has been called and has its value, unless a call was rejected. -/
structure Exact (items : List α) (concurrency : Number) (fn : α → ℕ → Except JsError β)
    (events : List (ℕ × Except JsError β)) (s : Pool β) : Prop where
  once : s.called.Nodup
  bounded : ¬ Exceeds s.inFlight.length (poolBound concurrency items.length)
  accounted : events.length + s.inFlight.length = s.called.length
  complete : s.inFlight = [] → (∀ e ∈ events, ¬ Rejected e) →
    s.called = List.range items.length ∧
      s.results.map (Option.map Except.ok) = items.zipIdx.map fun p => some (fn p.1 p.2)

/-! ## What holds whatever the calls do -/

/-- The items below the cursor have been called, in order; the calls that have not ended are
among them. -/
structure Counted (count workers : ℕ) (s : Pool β) : Prop where
  called : s.called = List.range (min s.cursor count)
  inFlight_le : s.inFlight.length ≤ workers
  inFlight_lt : ∀ i ∈ s.inFlight, i < count

variable {count workers : ℕ} {s : Pool β}

theorem counted_start (count workers : ℕ) :
    Counted count workers (start count workers : Pool β) := by
  obtain ⟨hplaced, hle⟩ := placed_start (β := β) count workers fun _ _ => True
  exact ⟨hplaced.called, hle, fun i hi => (hplaced.inFlight_lt i hi).trans_le (min_le_right _ _)⟩

theorem inFlight_lt_take (h : ∀ i ∈ s.inFlight, i < count) :
    ∀ i ∈ (take count s).inFlight, i < count := by
  rw [take]
  split
  next hc =>
    intro i hi
    rcases List.mem_append.mp hi with hi | hi
    · exact h i hi
    · rw [List.mem_singleton.mp hi]
      exact hc
  next => exact h

theorem length_erase_add_one {l : List ℕ} {i : ℕ} (h : i ∈ l) :
    (l.erase i).length + 1 = l.length := by
  have hpos := List.length_pos_of_mem h
  rw [List.length_erase_of_mem h]
  omega

/-- **A call that ends makes room for one.** -/
theorem counted_settleCall {e : ℕ × Except JsError β} (h : Counted count workers s)
    (he : e.1 ∈ s.inFlight) : Counted count workers (settleCall count s e) := by
  have hlt : ∀ i ∈ s.inFlight.erase e.1, i < count :=
    fun i hi => h.inFlight_lt i (List.mem_of_mem_erase hi)
  obtain ⟨i, out⟩ := e
  have hlen : (s.inFlight.erase i).length + 1 = s.inFlight.length := length_erase_add_one he
  cases out with
  | ok b =>
    change Counted count workers (settle count s (i, b))
    rw [settle, if_pos he]
    refine ⟨called_take h.called, ?_, inFlight_lt_take hlt⟩
    have hle := h.inFlight_le
    refine (length_inFlight_take _).trans ?_
    change (s.inFlight.erase i).length + 1 ≤ workers
    omega
  | error error =>
    rw [settleCall, if_pos he]
    refine ⟨h.called, ?_, hlt⟩
    have hle := h.inFlight_le
    change (s.inFlight.erase i).length ≤ workers
    omega

theorem length_take (count : ℕ) (s : Pool β) :
    (take count s).called.length + s.inFlight.length =
      s.called.length + (take count s).inFlight.length := by
  rw [take]
  split
  · change (s.called ++ [s.cursor]).length + _ = _ + (s.inFlight ++ [s.cursor]).length
    rw [List.length_append, List.length_append, List.length_singleton]
    omega
  · rfl

theorem length_settleCall (count : ℕ) {e : ℕ × Except JsError β} (he : e.1 ∈ s.inFlight) :
    1 + (settleCall count s e).inFlight.length + s.called.length =
      (settleCall count s e).called.length + s.inFlight.length := by
  obtain ⟨i, out⟩ := e
  have hlen : (s.inFlight.erase i).length + 1 = s.inFlight.length := length_erase_add_one he
  cases out with
  | ok b =>
    change 1 + (settle count s (i, b)).inFlight.length + s.called.length =
      (settle count s (i, b)).called.length + s.inFlight.length
    rw [settle, if_pos he]
    let freed : Pool β :=
      { s with inFlight := s.inFlight.erase i, results := s.results.set i (some b) }
    have htake : (take count freed).called.length + (s.inFlight.erase i).length =
        s.called.length + (take count freed).inFlight.length := length_take count freed
    change 1 + (take count freed).inFlight.length + s.called.length =
      (take count freed).called.length + s.inFlight.length
    omega
  | error error =>
    rw [settleCall, if_pos he]
    change 1 + (s.inFlight.erase i).length + s.called.length = s.called.length + s.inFlight.length
    omega

theorem inFlight_start (count workers : ℕ) :
    (start count workers : Pool β).inFlight = (start count workers : Pool β).called := by
  induction workers with
  | zero => rfl
  | succ workers ih =>
    rw [start, Function.iterate_succ_apply', ← start, take]
    split
    · exact congrArg (· ++ _) ih
    · exact ih

variable {items : List α} {concurrency : Number} {fn : α → ℕ → Except JsError β}
  {events : List (ℕ × Except JsError β)}

/-- **In every run items are called in order, and no more of them at once than there are
workers.** -/
theorem counted_run (h : MapRun items concurrency fn events) :
    Counted items.length (poolWorkers concurrency items.length)
      (afterRun items concurrency events) :=
  run_invariant (counted_start _ _) (fun _ _ hs he => counted_settleCall hs he.1) h

/-- **Every call made has ended or is in flight.** -/
theorem accounted_run (h : MapRun items concurrency fn events) :
    events.length + (afterRun items concurrency events).inFlight.length =
      (afterRun items concurrency events).called.length := by
  induction events using List.reverseRecOn with
  | nil =>
    rw [List.length_nil, Nat.zero_add]
    exact congrArg List.length (inFlight_start _ _)
  | append_singleton events e ih =>
    have hbefore := ih (h.before (List.prefix_append _ _))
    have hconcat : afterRun items concurrency (events ++ [e]) =
        settleCall items.length (afterRun items concurrency events) e := run_concat _ _ _ _
    have hin : e.1 ∈ (afterRun items concurrency events).inFlight :=
      (h events e (List.prefix_refl _)).1
    have hstep := length_settleCall items.length hin
    rw [hconcat, List.length_append, List.length_singleton]
    omega

/-- What `fn` gives for an item. -/
def GivesValue (items : List α) (fn : α → ℕ → Except JsError β) (i : ℕ) (b : β) : Prop :=
  items[i]?.map (fun a => fn a i) = some (.ok b)

/-- **While no call is rejected the workers go on to the end.** -/
theorem working_run_of_answered (hw : 0 < poolWorkers concurrency items.length)
    (h : MapRun items concurrency fn events) (hok : ∀ e ∈ events, ¬ Rejected e) :
    Working items.length (poolWorkers concurrency items.length) (GivesValue items fn)
      (afterRun items concurrency events) := by
  induction events using List.reverseRecOn with
  | nil => exact working_start items.length hw (GivesValue items fn)
  | append_singleton events e ih =>
    have hworking := ih (h.before (List.prefix_append _ _))
      fun e he => hok e (List.mem_append_left _ he)
    have hsettled := h events e (List.prefix_refl _)
    have hlast := hok e (List.mem_append_right _ List.mem_cons_self)
    rw [afterRun, run_concat]
    obtain ⟨i, out⟩ := e
    cases out with
    | ok b => exact working_settle hworking hsettled
    | error error => exact absurd ⟨error, rfl⟩ hlast

/-- At the end of a run each item has been called, and its value is in place. -/
theorem complete_of_working {s : Pool β} {workers : ℕ}
    (h : Working items.length workers (GivesValue items fn) s) (hidle : s.inFlight = []) :
    s.called = List.range items.length ∧
      s.results.map (Option.map Except.ok) = items.zipIdx.map fun p => some (fn p.1 p.2) := by
  have hmin : min s.cursor items.length = items.length := min_eq_right (h.idle hidle)
  refine ⟨hmin ▸ h.called, List.ext_getElem? fun i => ?_⟩
  rw [List.getElem?_map, List.getElem?_map, List.getElem?_zipIdx]
  by_cases hi : i < items.length
  · obtain ⟨b, hb, hgives⟩ := h.answered i (by omega) (by rw [hidle]; exact List.not_mem_nil)
    rw [hb]
    rw [GivesValue, List.getElem?_eq_getElem hi] at hgives
    rw [List.getElem?_eq_getElem hi]
    simpa using (Option.some.inj hgives).symm
  · rw [List.getElem?_eq_none (by rw [h.length]; omega), List.getElem?_eq_none (by omega)]
    rfl

/-! ## When the pool is exact -/

theorem exact_nil (h : MapRun [] concurrency fn events) :
    Exact [] concurrency fn events (afterRun ([] : List α) concurrency events) := by
  have hcounted := counted_run h
  have hcalled : (afterRun ([] : List α) concurrency events).called = [] := by
    have hc := hcounted.called
    rwa [List.length_nil, Nat.min_zero, List.range_zero] at hc
  have hidle : (afterRun ([] : List α) concurrency events).inFlight = [] :=
    List.eq_nil_iff_forall_not_mem.mpr fun i hi => absurd (hcounted.inFlight_lt i hi) (by simp)
  have hevents : events = [] := by
    have hlen := accounted_run h
    rw [hcalled, List.length_nil] at hlen
    exact List.length_eq_zero_iff.mp (by omega)
  refine ⟨hcalled ▸ List.nodup_nil, ?_, accounted_run h, ?_⟩
  · rw [hidle]
    cases concurrency with
    | nan => exact id
    | finite q =>
      change ¬ max 1 (min q ((0 : ℕ) : ℚ)) < ((0 : ℕ) : ℚ)
      rw [not_lt]
      exact le_max_of_le_left (by simp)
    | infinite negative =>
      cases negative with
      | true => exact fun hlt => absurd (show (((1 : ℕ) : ℚ)) < ((0 : ℕ) : ℚ) from hlt) (by simp)
      | false =>
        change ¬ max 1 ((0 : ℕ) : ℚ) < ((0 : ℕ) : ℚ)
        simp
  · intro _ _
    refine ⟨hcalled, ?_⟩
    rw [hevents]
    have hlen := (placed_start (β := β) 0 (poolWorkers concurrency 0) fun _ _ => True).1.length
    exact congrArg (List.map _) (List.length_eq_zero_iff.mp hlen)

/-- **With a number for a concurrency every run is exact.** -/
theorem exact_of_ne_nan (hc : concurrency ≠ .nan) (h : MapRun items concurrency fn events) :
    Exact items concurrency fn events (afterRun items concurrency events) := by
  by_cases hne : items = []
  · subst hne
    exact exact_nil h
  · have hpos : 0 < items.length := List.length_pos_iff.mpr hne
    have hcounted := counted_run h
    refine ⟨hcounted.called ▸ List.nodup_range,
      not_exceeds_poolBound hpos hcounted.inFlight_le, accounted_run h, ?_⟩
    intro hidle hok
    exact complete_of_working (working_run_of_answered (one_le_poolWorkers hc _) h hok) hidle

/-- **Every run is exact** iff the concurrency is a number, or there are no items. -/
theorem mapPool_exact_iff (items : List α) (concurrency : Number)
    (fn : α → ℕ → Except JsError β) :
    (∀ events, MapRun items concurrency fn events →
        Exact items concurrency fn events (afterRun items concurrency events)) ↔
      concurrency ≠ .nan ∨ items = [] := by
  constructor
  · intro h
    by_contra hnot
    obtain ⟨hnan, hne⟩ := not_or.mp hnot
    rw [not_not] at hnan
    subst hnan
    have hcomplete := (h [] allAllowed_nil).complete rfl (by rintro e ⟨⟩)
    have hlen := congrArg List.length hcomplete.1
    rw [List.length_range] at hlen
    exact hne (List.length_eq_zero_iff.mp hlen.symm)
  · rintro (hc | rfl) events h
    · exact exact_of_ne_nan hc h
    · exact exact_nil h

/-- With `NaN` for a concurrency no item is called. -/
theorem mapPool_nan_not_exact :
    ¬ ∀ events, MapRun [(7 : ℕ)] .nan (fun a _ => .ok a) events →
      Exact [(7 : ℕ)] .nan (fun a _ => .ok a) events (afterRun [(7 : ℕ)] .nan events) := by
  intro h
  have hcomplete := (h [] allAllowed_nil).complete rfl (by rintro e ⟨⟩)
  cases hcomplete.1

end

end BoingObserver.Rpc
