import Mathlib.Data.List.Nodup
import Mathlib.Data.List.Sort

/-!
# Maps in insertion order

A JavaScript `Map`: each key once, in the order the keys were first set.  Setting a
key that is there keeps its place.

* `get_set`, `get_delete`, `get_filter`: what each operation changes.
* `size_set_le`, `size_delete_le`: how the number of entries grows and shrinks.
* `entries_set_of_none`, `entries_set_of_some`: where an entry is set.
-/

namespace BoingObserver.Js

structure Map (κ ν : Type) where
  entries : List (κ × ν)
  nodup : (entries.map Prod.fst).Nodup

namespace Map

variable {κ ν : Type}

def empty : Map κ ν := ⟨[], List.nodup_nil⟩

def size (m : Map κ ν) : ℕ := m.entries.length

/-- Delete every entry that fails `p`. -/
def filter (m : Map κ ν) (p : κ × ν → Bool) : Map κ ν :=
  ⟨m.entries.filter p, m.nodup.sublist (List.filter_sublist.map Prod.fst)⟩

theorem size_filter_le (m : Map κ ν) (p : κ × ν → Bool) : (m.filter p).size ≤ m.size :=
  List.length_filter_le p m.entries

/-- Delete the oldest `n` entries. -/
def dropOldest (m : Map κ ν) (n : ℕ) : Map κ ν :=
  ⟨m.entries.drop n, m.nodup.sublist ((List.drop_sublist n _).map Prod.fst)⟩

@[simp] theorem size_dropOldest (m : Map κ ν) (n : ℕ) : (m.dropOldest n).size = m.size - n :=
  List.length_drop

variable [DecidableEq κ]

def lookup (k : κ) : List (κ × ν) → Option ν
  | [] => none
  | (k', v) :: es => if k' = k then some v else lookup k es

def get (m : Map κ ν) (k : κ) : Option ν := lookup k m.entries

def delete (m : Map κ ν) (k : κ) : Map κ ν := m.filter fun e => e.1 ≠ k

/-- The entries with `v` at `k`: in the place of `k`, or at the end. -/
def setEntries (k : κ) (v : ν) : List (κ × ν) → List (κ × ν)
  | [] => [(k, v)]
  | (k', v') :: es => if k' = k then (k, v) :: es else (k', v') :: setEntries k v es

theorem map_fst_setEntries (k : κ) (v : ν) (es : List (κ × ν)) :
    (setEntries k v es).map Prod.fst =
      if k ∈ es.map Prod.fst then es.map Prod.fst else es.map Prod.fst ++ [k] := by
  induction es with
  | nil => rfl
  | cons e es ih =>
    obtain ⟨k', v'⟩ := e
    rw [setEntries]
    by_cases hk : k' = k
    · rw [if_pos hk, hk, List.map_cons, List.map_cons, if_pos List.mem_cons_self]
    · rw [if_neg hk, List.map_cons, ih, List.map_cons]
      by_cases hm : k ∈ es.map Prod.fst
      · rw [if_pos hm, if_pos (List.mem_cons_of_mem _ hm)]
      · have hn : k ∉ k' :: es.map Prod.fst := by
          rintro (_ | ⟨_, h⟩)
          · exact hk rfl
          · exact hm h
        rw [if_neg hm, if_neg hn, List.cons_append]

def set (m : Map κ ν) (k : κ) (v : ν) : Map κ ν where
  entries := setEntries k v m.entries
  nodup := by
    rw [map_fst_setEntries]
    split
    · exact m.nodup
    next h =>
      rw [List.nodup_append]
      refine ⟨m.nodup, List.nodup_singleton k, ?_⟩
      rintro a ha b hb rfl
      exact h (List.mem_singleton.mp hb ▸ ha)

/-! ## Reading after an operation -/

@[simp] theorem get_empty (k : κ) : (empty : Map κ ν).get k = none := rfl

theorem lookup_setEntries (k k' : κ) (v : ν) (es : List (κ × ν)) :
    lookup k' (setEntries k v es) = if k' = k then some v else lookup k' es := by
  induction es with
  | nil =>
    change (if k = k' then some v else none) = if k' = k then some v else none
    simp only [eq_comm]
  | cons e es ih =>
    obtain ⟨j, w⟩ := e
    rw [setEntries]
    by_cases hj : j = k
    · subst hj
      rw [if_pos rfl, lookup, lookup]
      by_cases hk : j = k'
      · rw [if_pos hk, if_pos hk.symm]
      · rw [if_neg hk, if_neg fun h => hk h.symm, if_neg hk]
    · rw [if_neg hj, lookup, lookup, ih]
      by_cases hk : j = k'
      · rw [if_pos hk, if_neg fun h => hj (hk.trans h), if_pos hk]
      · rw [if_neg hk, if_neg hk]

/-- **Setting changes one key.** -/
theorem get_set (m : Map κ ν) (k k' : κ) (v : ν) :
    (m.set k v).get k' = if k' = k then some v else m.get k' :=
  lookup_setEntries k k' v m.entries

@[simp] theorem get_set_self (m : Map κ ν) (k : κ) (v : ν) : (m.set k v).get k = some v := by
  rw [get_set, if_pos rfl]

theorem get_set_of_ne (m : Map κ ν) {k k' : κ} (v : ν) (h : k' ≠ k) :
    (m.set k v).get k' = m.get k' := by
  rw [get_set, if_neg h]

theorem mem_of_lookup {k : κ} {v : ν} {es : List (κ × ν)} (h : lookup k es = some v) :
    (k, v) ∈ es := by
  induction es with
  | nil => cases h
  | cons e es ih =>
    obtain ⟨k', v'⟩ := e
    rw [lookup] at h
    split at h
    next hk =>
      obtain rfl := hk
      obtain rfl := Option.some.inj h
      exact List.mem_cons_self
    next => exact List.mem_cons_of_mem _ (ih h)

theorem lookup_of_mem {k : κ} {v : ν} {es : List (κ × ν)} (hnd : (es.map Prod.fst).Nodup)
    (h : (k, v) ∈ es) : lookup k es = some v := by
  induction es with
  | nil => cases h
  | cons e es ih =>
    obtain ⟨k', v'⟩ := e
    rw [List.map_cons, List.nodup_cons] at hnd
    rw [lookup]
    rcases List.mem_cons.mp h with heq | hm
    · obtain ⟨rfl, rfl⟩ := Prod.mk.inj heq
      rw [if_pos rfl]
    · have hne : k' ≠ k := by
        rintro rfl
        exact hnd.1 (List.mem_map.mpr ⟨(k', v), hm, rfl⟩)
      rw [if_neg hne]
      exact ih hnd.2 hm

theorem lookup_eq_lookup [BEq κ] [LawfulBEq κ] (k : κ) (es : List (κ × ν)) :
    lookup k es = es.lookup k := by
  induction es with
  | nil => rfl
  | cons e es ih =>
    obtain ⟨k', v⟩ := e
    rw [lookup, List.lookup_cons, ih]
    by_cases hk : k' = k
    · rw [if_pos hk, hk, beq_self_eq_true]
    · rw [if_neg hk, beq_false_of_ne fun h => hk h.symm]

/-- **An entry is what reading its key gives.** -/
theorem mem_entries_iff {m : Map κ ν} {k : κ} {v : ν} : (k, v) ∈ m.entries ↔ m.get k = some v :=
  ⟨lookup_of_mem m.nodup, mem_of_lookup⟩

/-- **Filtering keeps an entry or deletes it.** -/
theorem get_filter (m : Map κ ν) (p : κ × ν → Bool) (k : κ) :
    (m.filter p).get k = (m.get k).filter fun v => p (k, v) := by
  apply Option.ext
  intro v
  rw [← mem_entries_iff, Option.filter_eq_some_iff, ← mem_entries_iff]
  exact List.mem_filter

theorem get_delete (m : Map κ ν) (k k' : κ) :
    (m.delete k).get k' = if k' = k then none else m.get k' := by
  rw [delete, get_filter]
  by_cases h : k' = k
  · rw [if_pos h]
    cases m.get k' with
    | none => rfl
    | some v => simp [h]
  · rw [if_neg h]
    cases m.get k' with
    | none => rfl
    | some v => simp [h]

@[simp] theorem get_delete_self (m : Map κ ν) (k : κ) : (m.delete k).get k = none := by
  rw [get_delete, if_pos rfl]

theorem get_delete_of_ne (m : Map κ ν) {k k' : κ} (h : k' ≠ k) :
    (m.delete k).get k' = m.get k' := by
  rw [get_delete, if_neg h]

theorem get_dropOldest_of_some {m : Map κ ν} {n : ℕ} {k : κ} {v : ν}
    (h : (m.dropOldest n).get k = some v) : m.get k = some v := by
  rw [← mem_entries_iff] at h ⊢
  exact List.mem_of_mem_drop h

/-! ## The number of entries -/

theorem length_setEntries_le (k : κ) (v : ν) (es : List (κ × ν)) :
    (setEntries k v es).length ≤ es.length + 1 := by
  induction es with
  | nil => exact Nat.le_refl 1
  | cons e es ih =>
    obtain ⟨k', v'⟩ := e
    rw [setEntries]
    split
    · exact Nat.le_succ _
    · exact Nat.succ_le_succ ih

theorem size_set_le (m : Map κ ν) (k : κ) (v : ν) : (m.set k v).size ≤ m.size + 1 :=
  length_setEntries_le k v m.entries

theorem size_delete_le (m : Map κ ν) (k : κ) : (m.delete k).size ≤ m.size :=
  size_filter_le m _

/-! ## The place of an entry -/

theorem get_eq_none_iff {m : Map κ ν} {k : κ} : m.get k = none ↔ k ∉ m.entries.map Prod.fst := by
  rw [Option.eq_none_iff_forall_not_mem]
  constructor
  · intro h hk
    obtain ⟨⟨k', v⟩, hmem, rfl⟩ := List.mem_map.mp hk
    exact h v (mem_entries_iff.mp hmem)
  · intro h v hv
    exact h (List.mem_map.mpr ⟨(k, v), mem_entries_iff.mpr hv, rfl⟩)

/-- **A new key goes to the end.** -/
theorem entries_set_of_none {m : Map κ ν} {k : κ} (h : m.get k = none) (v : ν) :
    (m.set k v).entries = m.entries ++ [(k, v)] := by
  have hk := get_eq_none_iff.mp h
  change setEntries k v m.entries = _
  generalize m.entries = es at hk
  induction es with
  | nil => rfl
  | cons e es ih =>
    obtain ⟨hne, hes⟩ := not_or.mp (mt List.mem_cons.mpr hk)
    rw [setEntries, if_neg fun e => hne e.symm, ih hes, List.cons_append]

/-- **A key that is there keeps its place.** -/
theorem entries_set_of_some {m : Map κ ν} {k : κ} {v : ν} (h : m.get k = some v) :
    ∃ pre post, m.entries = pre ++ (k, v) :: post ∧
      ∀ w, (m.set k w).entries = pre ++ (k, w) :: post := by
  obtain ⟨pre, post, heq⟩ := List.append_of_mem (mem_entries_iff.mpr h)
  refine ⟨pre, post, heq, fun w => ?_⟩
  have hpre : k ∉ pre.map Prod.fst := by
    have hnodup := m.nodup
    rw [heq, List.map_append, List.map_cons] at hnodup
    intro hk
    exact List.disjoint_of_nodup_append hnodup hk List.mem_cons_self
  change setEntries k w m.entries = _
  rw [heq]
  clear heq
  induction pre with
  | nil => exact if_pos rfl
  | cons e pre ih =>
    obtain ⟨hne, hpre⟩ := not_or.mp (mt List.mem_cons.mpr hpre)
    rw [List.cons_append, setEntries, if_neg fun e => hne e.symm, ih hpre, List.cons_append]

theorem size_set_of_some {m : Map κ ν} {k : κ} {v : ν} (h : m.get k = some v) (w : ν) :
    (m.set k w).size = m.size := by
  obtain ⟨pre, post, heq, hset⟩ := entries_set_of_some h
  rw [size, size, hset, heq, List.length_append, List.length_append]
  rfl

end Map

/-! ## Sets -/

theorem nodup_eraseDups {α : Type} [BEq α] [LawfulBEq α] (l : List α) : l.eraseDups.Nodup := by
  induction hn : l.length using Nat.strongRecOn generalizing l with
  | _ n ih =>
    cases l with
    | nil => exact List.nodup_nil
    | cons a l =>
      rw [List.eraseDups_cons, List.nodup_cons]
      constructor
      · rw [List.mem_eraseDups, List.mem_filter]
        rintro ⟨-, h⟩
        simp at h
      · refine ih _ ?_ _ rfl
        rw [← hn]
        exact Nat.lt_succ_of_le (List.length_filter_le _ l)

theorem pairwise_lt_distinct {α : Type} [LinearOrder α] (l : List α) :
    (l.eraseDups.insertionSort (· ≤ ·)).Pairwise (· < ·) := by
  have hsort : (l.eraseDups.insertionSort (· ≤ ·)).Pairwise (· ≤ ·) :=
    List.pairwise_insertionSort _ _
  have hnodup : (l.eraseDups.insertionSort (· ≤ ·)).Nodup :=
    (List.perm_insertionSort _ _).nodup_iff.mpr (nodup_eraseDups l)
  exact hsort.imp₂ (fun _ _ hle hne => lt_of_le_of_ne hle hne) hnodup

theorem mem_distinct {α : Type} [LinearOrder α] {l : List α} {a : α} :
    a ∈ l.eraseDups.insertionSort (· ≤ ·) ↔ a ∈ l := by
  rw [List.mem_insertionSort, List.mem_eraseDups]

end BoingObserver.Js
