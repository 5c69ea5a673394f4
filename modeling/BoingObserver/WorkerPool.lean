import BoingObserver.Overlap
import Mathlib.Data.List.Nodup
import Mathlib.Data.List.Range

/-!
# Pools of workers

A pool maps a list of items by calls that take time.  A fixed number of workers share
a cursor: a worker calls with the item at the cursor, waits for the answer, writes it
at the item's place and goes on with the next item.  Calls are answered in any order.

* `working_run`: what holds in every state of a run (`Working`).
* `results_of_idle`: when no call is in flight any more, every item has been called
  once and has its answer.
-/

namespace BoingObserver.WorkerPool

open Overlap (run AllAllowed run_invariant)

structure Pool (β : Type) where
  cursor : ℕ
  /-- The items whose calls are not answered yet. -/
  inFlight : List ℕ
  /-- The items of all calls, oldest first. -/
  called : List ℕ
  results : List (Option β)

section

variable {β : Type}

/-- A free worker takes the next item; after the last one it ends. -/
def take (count : ℕ) (s : Pool β) : Pool β :=
  if s.cursor < count then
    { s with
      cursor := s.cursor + 1
      inFlight := s.inFlight ++ [s.cursor]
      called := s.called ++ [s.cursor] }
  else { s with cursor := s.cursor + 1 }

/-- The workers are started one after the other. -/
def start (count workers : ℕ) : Pool β :=
  (take count)^[workers] ⟨0, [], [], List.replicate count none⟩

/-- A call is answered and its worker goes on; of no effect when it is not in flight. -/
def settle (count : ℕ) (s : Pool β) (e : ℕ × β) : Pool β :=
  if e.1 ∈ s.inFlight then
    take count
      { s with
        inFlight := s.inFlight.erase e.1
        results := s.results.set e.1 (some e.2) }
  else s

/-- A call is answered as `answers` says. -/
def Answered (answers : ℕ → β → Prop) (s : Pool β) (e : ℕ × β) : Prop :=
  e.1 ∈ s.inFlight ∧ answers e.1 e.2

/-! ## What holds in every state -/

/-- Every item below the cursor has been called once, and is in flight or has its answer. -/
structure Placed (count : ℕ) (answers : ℕ → β → Prop) (s : Pool β) : Prop where
  length : s.results.length = count
  called : s.called = List.range (min s.cursor count)
  nodup : s.inFlight.Nodup
  inFlight_lt : ∀ i ∈ s.inFlight, i < min s.cursor count
  answered : ∀ i < min s.cursor count, i ∉ s.inFlight →
    ∃ b, s.results[i]? = some (some b) ∧ answers i b

/-- The state of a pool with some workers: none of them ends before the items do. -/
structure Working (count workers : ℕ) (answers : ℕ → β → Prop) (s : Pool β) : Prop
    extends Placed count answers s where
  inFlight_le : s.inFlight.length ≤ workers
  idle : s.inFlight = [] → count ≤ s.cursor

variable {count workers : ℕ} {answers : ℕ → β → Prop} {s : Pool β}

theorem called_take (h : s.called = List.range (min s.cursor count)) :
    (take count s).called = List.range (min (take count s).cursor count) := by
  rw [take]
  by_cases hc : s.cursor < count
  · rw [if_pos hc]
    have hmin : min (s.cursor + 1) count = min s.cursor count + 1 := by omega
    have hcur : min s.cursor count = s.cursor := by omega
    change s.called ++ [s.cursor] = List.range (min (s.cursor + 1) count)
    rw [hmin, List.range_succ, h, hcur]
  · rw [if_neg hc]
    have hmin : min (s.cursor + 1) count = min s.cursor count := by omega
    exact h.trans (congrArg List.range hmin.symm)

theorem placed_take (h : Placed count answers s) : Placed count answers (take count s) := by
  have hcalled := called_take h.called
  rw [take] at hcalled ⊢
  by_cases hc : s.cursor < count
  · rw [if_pos hc] at hcalled ⊢
    have hmin : min (s.cursor + 1) count = min s.cursor count + 1 := by omega
    refine ⟨h.length, hcalled, ?_, ?_, ?_⟩
    · refine List.nodup_append.mpr ⟨h.nodup, List.nodup_singleton _, ?_⟩
      rintro i hi j hj rfl
      have hlt := h.inFlight_lt i hi
      rw [List.mem_singleton.mp hj] at hlt
      omega
    · intro i hi
      rw [hmin]
      rcases List.mem_append.mp hi with hi | hi
      · exact Nat.lt_succ_of_lt (h.inFlight_lt i hi)
      · rw [List.mem_singleton.mp hi]
        omega
    · intro i hi hnot
      rw [List.mem_append, List.mem_singleton, not_or] at hnot
      rw [hmin] at hi
      exact h.answered i (by omega) hnot.1
  · rw [if_neg hc] at hcalled ⊢
    have hmin : min (s.cursor + 1) count = min s.cursor count := by omega
    exact ⟨h.length, hcalled, h.nodup, hmin ▸ h.inFlight_lt, hmin ▸ h.answered⟩

theorem length_inFlight_take (s : Pool β) :
    (take count s).inFlight.length ≤ s.inFlight.length + 1 := by
  rw [take]
  split
  · rw [List.length_append, List.length_singleton]
  · exact Nat.le_succ _

/-- A worker that ends has seen the last item. -/
theorem idle_take (h : (take count s).inFlight = []) : count ≤ (take count s).cursor := by
  rw [take] at h ⊢
  split at h
  · exact absurd h (List.append_ne_nil_of_right_ne_nil _ (List.cons_ne_nil _ _))
  next hc =>
    rw [if_neg hc]
    change count ≤ s.cursor + 1
    omega

theorem placed_start (count workers : ℕ) (answers : ℕ → β → Prop) :
    Placed count answers (start count workers) ∧
      (start count workers : Pool β).inFlight.length ≤ workers := by
  induction workers with
  | zero =>
    refine ⟨⟨List.length_replicate, ?_, List.nodup_nil, ?_, ?_⟩, le_rfl⟩
    · rw [start, Function.iterate_zero, id, Nat.zero_min, List.range_zero]
    · rintro i ⟨⟩
    · intro i hi
      rw [start, Function.iterate_zero, id, Nat.zero_min] at hi
      omega
  | succ workers ih =>
    rw [start, Function.iterate_succ_apply', ← start]
    exact ⟨placed_take ih.1, (length_inFlight_take _).trans (Nat.succ_le_succ ih.2)⟩

theorem working_start (count : ℕ) (hw : 0 < workers) (answers : ℕ → β → Prop) :
    Working count workers answers (start count workers) := by
  obtain ⟨w, rfl⟩ : ∃ w, workers = w + 1 := ⟨workers - 1, by omega⟩
  obtain ⟨hplaced, hle⟩ := placed_start count (w + 1) answers
  refine ⟨hplaced, hle, ?_⟩
  rw [start, Function.iterate_succ_apply']
  exact idle_take

/-- **An answer keeps the items in place.** -/
theorem working_settle {e : ℕ × β} (h : Working count workers answers s)
    (he : Answered answers s e) : Working count workers answers (settle count s e) := by
  obtain ⟨hmem, hans⟩ := he
  rw [settle, if_pos hmem]
  have hlen : (s.inFlight.erase e.1).length + 1 = s.inFlight.length := by
    have hpos := List.length_pos_of_mem hmem
    rw [List.length_erase_of_mem hmem]
    omega
  refine ⟨placed_take ⟨?_, h.called, h.nodup.erase _, ?_, ?_⟩, ?_, idle_take⟩
  · exact (List.length_set ..).trans h.length
  · exact fun i hi => h.inFlight_lt i (List.mem_of_mem_erase hi)
  · intro i hi hnot
    by_cases hie : e.1 = i
    · subst hie
      have hlt : e.1 < s.results.length := by
        rw [h.length]
        omega
      exact ⟨e.2, List.getElem?_set_self hlt, hans⟩
    · have hout : i ∉ s.inFlight := fun hin =>
        hnot ((List.mem_erase_of_ne fun he => hie he.symm).mpr hin)
      obtain ⟨b, hb, hab⟩ := h.answered i hi hout
      exact ⟨b, (List.getElem?_set_ne hie).trans hb, hab⟩
  · refine (length_inFlight_take _).trans ?_
    have hworkers := h.inFlight_le
    change (s.inFlight.erase e.1).length + 1 ≤ workers
    omega

/-- **What holds in every state of a run**, in whatever order the calls are answered. -/
theorem working_run (hw : 0 < workers) {events : List (ℕ × β)}
    (h : AllAllowed (settle count) (Answered answers) (start count workers) events) :
    Working count workers answers (run (settle count) (start count workers) events) :=
  run_invariant (working_start count hw answers) (fun _ _ => working_settle) h

/-! ## The end of a run -/

/-- **Every item has been called once and has its answer** when no call is in flight. -/
theorem results_of_idle {answer : ℕ → β} (h : Working count workers (fun i b => b = answer i) s)
    (hidle : s.inFlight = []) :
    s.called = List.range count ∧ s.results = (List.range count).map fun i => some (answer i) := by
  have hmin : min s.cursor count = count := min_eq_right (h.idle hidle)
  refine ⟨hmin ▸ h.called, List.ext_getElem? fun i => ?_⟩
  rw [List.getElem?_map]
  by_cases hi : i < count
  · obtain ⟨b, hb, rfl⟩ := h.answered i (by omega) (by rw [hidle]; exact List.not_mem_nil)
    rw [hb, List.getElem?_range hi]
    rfl
  · rw [List.getElem?_eq_none (by rw [h.length]; omega),
      List.getElem?_eq_none (by rw [List.length_range]; omega)]
    rfl

end

end BoingObserver.WorkerPool
