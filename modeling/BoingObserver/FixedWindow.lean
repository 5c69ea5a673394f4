import Mathlib.Algebra.Order.Monoid.Unbundled.Basic
import Mathlib.Data.List.Basic

/-!
# Counting in fixed windows

Requests are counted in windows of one length.  A request at or after the end of
the running window opens the next one, so windows begin at requests and are at
least their length apart.

* `trail_eq`: a request's count is its place in its window.
* `isSplit_windows`: each window is over before the next begins.
* `allowed_le`: an interval of the length of a window meets two windows at most,
  so it holds at most twice the limit of allowed requests.
-/

namespace BoingObserver.FixedWindow

variable {τ : Type}

structure Window (τ : Type) where
  resetAt : τ
  count : ℕ

def places (w : List τ) : List (τ × ℕ) := w.zipIdx 1

theorem places_concat (w : List τ) (t : τ) :
    places (w ++ [t]) = places w ++ [(t, w.length + 1)] := by
  rw [places, List.zipIdx_append, Nat.add_comm]
  rfl

variable [LinearOrder τ] [Add τ]

/-- The window of a request at `t`: the running one, or the next. -/
def next (W : τ) (w : Option (Window τ)) (t : τ) : Window τ :=
  match w with
  | none => ⟨t + W, 1⟩
  | some w => if w.resetAt ≤ t then ⟨t + W, 1⟩ else ⟨w.resetAt, w.count + 1⟩

def trail (W : τ) : Option (Window τ) → List τ → List (τ × Window τ)
  | _, [] => []
  | w, t :: ts => (t, next W w t) :: trail W (some (next W w t)) ts

/-! ## Splitting into windows -/

/-- Split requests, given the requests `cur` of the running window and its end. -/
def windowsFrom (W : τ) : τ → List τ → List τ → List (List τ)
  | _, cur, [] => [cur]
  | e, cur, t :: ts =>
    if e ≤ t then cur :: windowsFrom W (t + W) [t] ts else windowsFrom W e (cur ++ [t]) ts

def windows (W : τ) : List τ → List (List τ)
  | [] => []
  | t :: ts => windowsFrom W (t + W) [t] ts

theorem flatten_windowsFrom (W e : τ) (cur ts : List τ) :
    (windowsFrom W e cur ts).flatten = cur ++ ts := by
  induction ts generalizing e cur with
  | nil => rw [windowsFrom, List.flatten_cons, List.flatten_nil]
  | cons t ts ih =>
    rw [windowsFrom]
    split
    · rw [List.flatten_cons, ih, List.singleton_append]
    · rw [ih, List.append_assoc, List.singleton_append]

/-- **Every request is in one window.** -/
theorem flatten_windows (W : τ) (ts : List τ) : (windows W ts).flatten = ts := by
  cases ts with
  | nil => rfl
  | cons t ts => exact flatten_windowsFrom W (t + W) [t] ts

theorem ne_nil_of_mem_windowsFrom {W e : τ} {cur ts : List τ} (hcur : cur ≠ []) :
    ∀ w ∈ windowsFrom W e cur ts, w ≠ [] := by
  induction ts generalizing e cur with
  | nil =>
    intro w hw
    rw [List.mem_singleton.mp hw]
    exact hcur
  | cons t ts ih =>
    rw [windowsFrom]
    split
    · intro w hw
      rcases List.mem_cons.mp hw with rfl | hw
      · exact hcur
      · exact ih (List.cons_ne_nil t []) w hw
    · exact ih (List.append_ne_nil_of_right_ne_nil cur (List.cons_ne_nil t []))

theorem ne_nil_of_mem_windows {W : τ} {ts : List τ} : ∀ w ∈ windows W ts, w ≠ [] := by
  cases ts with
  | nil =>
    intro w hw
    cases hw
  | cons t ts => exact ne_nil_of_mem_windowsFrom (List.cons_ne_nil t [])

/-! ## Counts -/

theorem trail_eq_windowsFrom (W e : τ) (cur ts : List τ) :
    (windowsFrom W e cur ts).flatMap places =
      places cur ++ (trail W (some ⟨e, cur.length⟩) ts).map fun p => (p.1, p.2.count) := by
  induction ts generalizing e cur with
  | nil => rw [windowsFrom, trail, List.flatMap_singleton, List.map_nil, List.append_nil]
  | cons t ts ih =>
    rw [windowsFrom, trail, List.map_cons, next]
    by_cases he : e ≤ t
    · rw [if_pos he, if_pos he, List.flatMap_cons, ih]
      rfl
    · rw [if_neg he, if_neg he, ih, places_concat, List.append_assoc, List.length_append]
      rfl

/-- **A request's count is its place in its window.** -/
theorem trail_eq (W : τ) (ts : List τ) :
    (trail W none ts).map (fun p => (p.1, p.2.count)) = (windows W ts).flatMap places := by
  cases ts with
  | nil => rfl
  | cons t ts => exact (trail_eq_windowsFrom W (t + W) [t] ts).symm

/-! ## Windows in order -/

/-- `w` is over before `w'` begins: its last request is not later, and it has ended. -/
def Before (W : τ) (w w' : List τ) : Prop :=
  ∀ y ∈ w', (∀ x ∈ w, x ≤ y) ∧ ∀ x ∈ w.head?, x + W ≤ y

theorem windowsFrom_pairwise {W h : τ} {cur ts : List τ} (hh : cur.head? = some h)
    (hs : (cur ++ ts).Pairwise (· ≤ ·)) :
    (windowsFrom W (h + W) cur ts).Pairwise (Before W) := by
  induction ts generalizing h cur with
  | nil => exact List.pairwise_singleton _ _
  | cons t ts ih =>
    rw [windowsFrom]
    obtain ⟨-, hts, hcross⟩ := List.pairwise_append.mp hs
    split
    next hend =>
      refine List.pairwise_cons.mpr ⟨?_, ih rfl hts⟩
      intro w' hw' y hy
      have hmem : y ∈ t :: ts := by
        have hf := flatten_windowsFrom W (t + W) [t] ts
        rw [List.singleton_append] at hf
        exact hf ▸ List.mem_flatten_of_mem hw' hy
      refine ⟨fun x hx => hcross x hx y hmem, ?_⟩
      intro x hx
      obtain rfl : x = h := Option.some.inj ((Option.mem_def.mp hx).symm.trans hh)
      rcases List.mem_cons.mp hmem with rfl | hmem
      · exact hend
      · exact hend.trans ((List.pairwise_cons.mp hts).1 y hmem)
    next =>
      refine ih ?_ ?_
      · rw [List.head?_append, hh]
        rfl
      · rwa [List.append_assoc, List.singleton_append]

/-- **Each window is over before the next begins.** -/
theorem windows_pairwise (W : τ) {ts : List τ} (hs : ts.Pairwise (· ≤ ·)) :
    (windows W ts).Pairwise (Before W) := by
  cases ts with
  | nil => exact List.Pairwise.nil
  | cons t ts => exact windowsFrom_pairwise rfl hs

theorem opened_windowsFrom {W h e : τ} {rest ts : List τ} (he : e = h + W)
    (hrest : ∀ x ∈ rest, x < h + W) :
    ∀ w ∈ windowsFrom W e (h :: rest) ts, ∃ h' rest', w = h' :: rest' ∧ ∀ x ∈ rest', x < h' + W := by
  induction ts generalizing h e rest with
  | nil =>
    intro w hw
    exact ⟨h, rest, List.mem_singleton.mp hw, hrest⟩
  | cons t ts ih =>
    rw [windowsFrom]
    split
    next =>
      intro w hw
      rcases List.mem_cons.mp hw with rfl | hw
      · exact ⟨h, rest, rfl, hrest⟩
      · exact ih rfl (List.forall_mem_nil _) w hw
    next hend =>
      refine ih he ?_
      intro x hx
      rcases List.mem_append.mp hx with hx | hx
      · exact hrest x hx
      · rw [List.mem_singleton.mp hx, ← he]
        exact not_le.mp hend

/-- The requests `ts`, window by window: each window has its first request and those before its
end, and is over before the next begins. -/
structure IsSplit (W : τ) (ts : List τ) (ws : List (List τ)) : Prop where
  flatten : ws.flatten = ts
  opened : ∀ w ∈ ws, ∃ first rest, w = first :: rest ∧ ∀ t ∈ rest, t < first + W
  ordered : ws.Pairwise (Before W)

theorem isSplit_windows (W : τ) {ts : List τ} (hs : ts.Pairwise (· ≤ ·)) :
    IsSplit W ts (windows W ts) where
  flatten := flatten_windows W ts
  opened := by
    cases ts with
    | nil =>
      intro w hw
      cases hw
    | cons t ts => exact opened_windowsFrom rfl (List.forall_mem_nil _)
  ordered := windows_pairwise W hs

/-- A running window ends within a window's length of its last request. -/
theorem trail_resetAt_le [AddRightMono τ] (W : τ) (w : Option (Window τ)) {ts : List τ}
    (hs : ts.Pairwise (· ≤ ·)) (hw : ∀ v ∈ w, ∀ t ∈ ts, v.resetAt ≤ t + W) :
    ∀ p ∈ trail W w ts, p.2.resetAt ≤ p.1 + W := by
  induction ts generalizing w with
  | nil =>
    intro p hp
    cases hp
  | cons t ts ih =>
    obtain ⟨ht, hts⟩ := List.pairwise_cons.mp hs
    have hnext : (next W w t).resetAt ≤ t + W := by
      cases w with
      | none => exact le_refl _
      | some v =>
        rw [next]
        split
        · exact le_refl _
        · exact hw v rfl t List.mem_cons_self
    intro p hp
    rcases List.mem_cons.mp hp with rfl | hp
    · exact hnext
    · refine ih (some (next W w t)) hts ?_ p hp
      intro v hv x hx
      obtain rfl := Option.some.inj hv
      exact hnext.trans (by gcongr; exact ht x hx)

/-! ## An interval of the length of a window -/

/-- A request in `[a, a + W)` with a place up to the limit. -/
def isAllowedIn (W a : τ) (limit : ℕ) (p : τ × ℕ) : Bool :=
  (decide (a ≤ p.1) && decide (p.1 < a + W)) && decide (p.2 ≤ limit)

theorem countP_zipIdx_le (W a : τ) (limit n : ℕ) (w : List τ) :
    (w.zipIdx n).countP (isAllowedIn W a limit) ≤ limit + 1 - n := by
  induction w generalizing n with
  | nil => exact Nat.zero_le _
  | cons t w ih =>
    have hw := ih (n + 1)
    rw [List.zipIdx_cons, List.countP_cons]
    split
    next h =>
      have hn : n ≤ limit := of_decide_eq_true ((Bool.and_eq_true _ _).mp h).2
      omega
    next => omega

theorem countP_places_le (W a : τ) (limit : ℕ) (w : List τ) :
    (places w).countP (isAllowedIn W a limit) ≤ limit :=
  countP_zipIdx_le W a limit 1 w

theorem countP_places_eq_zero {W a : τ} {limit : ℕ} {w : List τ}
    (h : ∀ y ∈ w, a ≤ y → a + W ≤ y) : (places w).countP (isAllowedIn W a limit) = 0 := by
  rw [List.countP_eq_zero]
  rintro ⟨y, i⟩ hp hin
  have hy : y ∈ w := by
    have hf : (w.zipIdx 1).map Prod.fst = w := List.zipIdx_map_fst 1 w
    exact hf ▸ List.mem_map.mpr ⟨(y, i), hp, rfl⟩
  rw [isAllowedIn, Bool.and_eq_true, Bool.and_eq_true, decide_eq_true_eq, decide_eq_true_eq] at hin
  exact absurd (h y hy hin.1.1) (not_le.mpr hin.1.2)

variable [AddRightMono τ]

theorem countP_flatMap_le (W a : τ) (limit : ℕ) {ws : List (List τ)}
    (hne : ∀ w ∈ ws, w ≠ []) (hord : ws.Pairwise (Before W)) :
    (ws.flatMap places).countP (isAllowedIn W a limit) ≤ 2 * limit := by
  induction ws with
  | nil => exact Nat.zero_le _
  | cons w ws ih =>
    obtain ⟨hw, hws⟩ := List.pairwise_cons.mp hord
    rw [List.flatMap_cons, List.countP_append]
    by_cases hmeet : ∃ x ∈ w, a ≤ x
    · -- From here on only the next window can meet the interval.
      obtain ⟨x, hx, hax⟩ := hmeet
      have hfirst := countP_places_le W a limit w
      cases ws with
      | nil =>
        rw [List.flatMap_nil, List.countP_nil]
        omega
      | cons w₂ rest =>
        have hsecond := countP_places_le W a limit w₂
        have hrest : (rest.flatMap places).countP (isAllowedIn W a limit) = 0 := by
          rw [List.countP_eq_zero]
          intro p hp
          obtain ⟨w₃, hw₃, hp⟩ := List.mem_flatMap.mp hp
          refine List.countP_eq_zero.mp (countP_places_eq_zero ?_) p hp
          intro y hy _
          obtain ⟨h₂, t₂, rfl⟩ := List.exists_cons_of_ne_nil
            (hne w₂ (List.mem_cons_of_mem _ List.mem_cons_self))
          have hah : a ≤ h₂ :=
            hax.trans ((hw _ List.mem_cons_self h₂ List.mem_cons_self).1 x hx)
          have hhy : h₂ + W ≤ y := ((List.pairwise_cons.mp hws).1 w₃ hw₃ y hy).2 h₂ rfl
          exact le_trans (by gcongr) hhy
        rw [List.flatMap_cons, List.countP_append, hrest]
        omega
    · have hnone : (places w).countP (isAllowedIn W a limit) = 0 :=
        countP_places_eq_zero fun y hy hay => absurd ⟨y, hy, hay⟩ hmeet
      rw [hnone, Nat.zero_add]
      exact ih (fun v hv => hne v (List.mem_cons_of_mem _ hv)) hws

/-- **At most twice the limit is allowed in any interval of the length of a window.** -/
theorem allowed_le (W a : τ) (limit : ℕ) {ts : List τ} (hs : ts.Pairwise (· ≤ ·)) :
    ((trail W none ts).map fun p => (p.1, p.2.count)).countP (isAllowedIn W a limit) ≤
      2 * limit := by
  rw [trail_eq]
  exact countP_flatMap_le W a limit ne_nil_of_mem_windows (windows_pairwise W hs)

end BoingObserver.FixedWindow
