import BoingObserver.RateLimit.Law

/-!
# Evictions

What the rate limiter forgets when its table is full, over whole runs.

* `after_cases`: what a request does to the table.
* `table_bounded`: the table never has more than `maxEntries` entries.
* `Inv.after`, `along_oldestFirst`: the windows stand in the order of their starts, and the
  oldest go first, as long as no expired entry is renewed in front of an older window.
* `evicts_newer`: a renewed entry keeps its old place and is dropped before older windows.
-/

namespace BoingObserver.RateLimit

open Js

/-! ## Runs -/

def run (maxEntries : ℕ) (rs : List Request) : Entries := rs.foldl (after maxEntries) Map.empty

/-- Something holds of the table before each request of a run, and of the request. -/
def Along (maxEntries : ℕ) (P : Entries → Request → Prop) : Entries → List Request → Prop
  | _, [] => True
  | es, r :: rs => P es r ∧ Along maxEntries P (after maxEntries es r) rs

section

variable {maxEntries : ℕ} {es : Entries} {r : Request}

/-- **What a request does to the table**: it is counted in its running window, or room is made and
a new window begins. -/
theorem after_cases (maxEntries : ℕ) (es : Entries) (r : Request) :
    (∃ e, es.get r.key = some e ∧ r.now < e.resetAt ∧
      after maxEntries es r = es.set r.key { e with count := e.count + 1 }) ∨
    ((∀ e, es.get r.key = some e → e.resetAt ≤ r.now) ∧
      after maxEntries es r =
        (prune maxEntries r.now es).set r.key ⟨1, r.now + r.rule.windowMs⟩) := by
  rw [after, check, openEntry, ← Request.key]
  cases hget : es.get r.key with
  | none =>
    refine Or.inr ⟨fun e he => ?_, rfl⟩
    cases he
  | some e =>
    by_cases hend : e.resetAt ≤ r.now
    · refine Or.inr ⟨fun e' he' => Option.some.inj he' ▸ hend, ?_⟩
      dsimp only
      rw [if_pos hend]
      rfl
    · refine Or.inl ⟨e, rfl, not_le.mp hend, ?_⟩
      dsimp only
      rw [if_neg hend]

/-! ## The size of the table -/

theorem size_prune_lt (hmax : 1 ≤ maxEntries) (h : es.size ≤ maxEntries) (now : ℤ) :
    (prune maxEntries now es).size < maxEntries := by
  have hle : (unexpired now es).size ≤ es.size := Map.size_filter_le es _
  rw [prune]
  split
  · assumption
  · split
    · assumption
    · rw [Map.size_dropOldest]
      omega

theorem size_after_le (hmax : 1 ≤ maxEntries) (h : es.size ≤ maxEntries) (r : Request) :
    (after maxEntries es r).size ≤ maxEntries := by
  rcases after_cases maxEntries es r with ⟨e, he, -, hafter⟩ | ⟨-, hafter⟩
  · rw [hafter, Map.size_set_of_some he]
    exact h
  · rw [hafter]
    exact (Map.size_set_le _ _ _).trans (size_prune_lt hmax h r.now)

/-- **The table is bounded**: after every call of every run, whatever the buckets, clients, windows
and clock, it has at most `maxEntries` entries. -/
theorem table_bounded {maxEntries : ℕ} (hmax : 1 ≤ maxEntries) (rs : List Request) :
    (run maxEntries rs).size ≤ maxEntries := by
  rw [run]
  induction rs using List.reverseRecOn with
  | nil => exact Nat.zero_le _
  | append_singleton rs r ih =>
    rw [List.foldl_append]
    exact size_after_le hmax ih r

/-- Three clients, room for two, and a clock that goes back. -/
theorem table_bounded_three :
    let bucket : RateLimitRule := ⟨"t", 1, 1⟩
    (run 2 [⟨"a", bucket, 5⟩, ⟨"b", bucket, 3⟩, ⟨"c", bucket, 4⟩]).size ≤ 2 :=
  table_bounded (by decide) _

/-! ## Which windows go -/

def Entry.startedAt (windowSec : ℕ) (e : Entry) : ℤ := e.resetAt - windowSec * 1000

/-- No running window that the request drops started later than one that is kept. -/
def OldestFirst (maxEntries windowSec : ℕ) (es : Entries) (r : Request) : Prop :=
  ∀ k e, es.get k = some e → e.running r.now = true → (after maxEntries es r).get k = none →
    ∀ k' e', (after maxEntries es r).get k' = some e' →
      e.startedAt windowSec ≤ e'.startedAt windowSec

/-- If there is room and the request finds an expired entry, no running window that stands after
that entry began before the request. -/
def InOrder (maxEntries windowSec : ℕ) (es : Entries) (r : Request) : Prop :=
  es.size < maxEntries → ∀ pre e post, es.entries = pre ++ (r.key, e) :: post →
    e.resetAt ≤ r.now → ∀ p ∈ post, p.2.running r.now = true → r.now ≤ p.2.startedAt windowSec

end

/-! ## The order of the windows -/

def deadlines (es : Entries) : List ℤ := es.entries.map fun p => p.2.resetAt

/-- The running windows stand in the order of their ends, and none ends later than a window that
begins now. -/
structure Inv (windowSec : ℕ) (now : ℤ) (es : Entries) : Prop where
  bounded : ∀ d ∈ deadlines es, d ≤ now + windowSec * 1000
  ordered : ((deadlines es).filter fun d => decide (now < d)).Pairwise (· ≤ ·)

theorem inv_empty (windowSec : ℕ) (now : ℤ) : Inv windowSec now Map.empty :=
  ⟨List.forall_mem_nil _, List.Pairwise.nil⟩

section

variable {maxEntries windowSec : ℕ} {now : ℤ} {es es' : Entries} {r : Request}

theorem Inv.sublist (h : Inv windowSec now es) (hsub : (deadlines es').Sublist (deadlines es)) :
    Inv windowSec now es' :=
  ⟨fun d hd => h.bounded d (hsub.subset hd), h.ordered.sublist (hsub.filter _)⟩

theorem Inv.mono (h : Inv windowSec now es) {t : ℤ} (ht : now ≤ t) : Inv windowSec t es where
  bounded d hd := (h.bounded d hd).trans (by omega)
  ordered := by
    have hfilter : (deadlines es).filter (fun d => decide (t < d)) =
        ((deadlines es).filter fun d => decide (now < d)).filter fun d => decide (t < d) := by
      rw [List.filter_filter]
      refine List.filter_congr fun d _ => ?_
      by_cases hd : t < d
      · rw [decide_eq_true hd, decide_eq_true (ht.trans_lt hd), Bool.and_self]
      · rw [decide_eq_false hd, Bool.false_and]
    rw [hfilter]
    exact h.ordered.sublist List.filter_sublist

theorem deadlines_prune (maxEntries : ℕ) (now : ℤ) (es : Entries) :
    (deadlines (prune maxEntries now es)).Sublist (deadlines es) := by
  have hexpired : (deadlines (unexpired now es)).Sublist (deadlines es) :=
    List.filter_sublist.map _
  rw [prune]
  split
  · exact List.Sublist.refl _
  · split
    · exact hexpired
    · exact ((List.drop_sublist _ _).map _).trans hexpired

/-- An expired entry that survives pruning is one in a table with room. -/
theorem size_lt_of_get_prune {k : Text} {e : Entry} (hend : ∀ e, es.get k = some e → e.resetAt ≤ now)
    (h : (prune maxEntries now es).get k = some e) :
    es.size < maxEntries ∧ prune maxEntries now es = es := by
  by_cases hroom : es.size < maxEntries
  · exact ⟨hroom, by rw [prune, if_pos hroom]⟩
  · have hgone : (unexpired now es).get k = none := by
      rw [unexpired, Map.get_filter, Option.filter_eq_none_iff]
      intro e he hrun
      exact not_lt.mpr (hend e he) (of_decide_eq_true hrun)
    rw [prune, if_neg hroom] at h
    split at h
    · cases hgone.symm.trans h
    · cases hgone.symm.trans (Map.get_dropOldest_of_some h)

theorem Inv.push (h : Inv windowSec now es) {es' : Entries}
    (hes' : deadlines es' = deadlines es ++ [now + windowSec * 1000]) : Inv windowSec now es' where
  bounded := by
    rw [hes']
    exact List.forall_mem_append.mpr ⟨h.bounded, List.forall_mem_singleton.mpr le_rfl⟩
  ordered := by
    rw [hes', List.filter_append, List.pairwise_append]
    refine ⟨h.ordered, (List.pairwise_singleton _ _).sublist List.filter_sublist, ?_⟩
    intro a ha b hb
    rw [List.mem_singleton.mp (List.mem_of_mem_filter hb)]
    exact h.bounded a (List.mem_of_mem_filter ha)

/-- A new window in the place of an old one, with no older window after it. -/
theorem Inv.renew (h : Inv windowSec now es) {es' : Entries} {pre post : List ℤ} {d : ℤ}
    (hes : deadlines es = pre ++ d :: post)
    (hes' : deadlines es' = pre ++ (now + windowSec * 1000) :: post)
    (hpost : ∀ b ∈ post, now < b → now + windowSec * 1000 ≤ b) : Inv windowSec now es' where
  bounded := by
    have hbounded := h.bounded
    rw [hes, List.forall_mem_append, List.forall_mem_cons] at hbounded
    rw [hes', List.forall_mem_append, List.forall_mem_cons]
    exact ⟨hbounded.1, le_rfl, hbounded.2.2⟩
  ordered := by
    have hbounded := h.bounded
    have hrest : ((pre ++ post).filter fun d => decide (now < d)).Pairwise (· ≤ ·) := by
      refine h.ordered.sublist (List.Sublist.filter _ ?_)
      rw [hes]
      exact (List.sublist_cons_self d post).append_left pre
    rw [List.filter_append, List.pairwise_append] at hrest
    rw [hes', List.filter_append, List.filter_cons]
    split
    · refine List.pairwise_append.mpr ⟨hrest.1, List.pairwise_cons.mpr ⟨?_, hrest.2.1⟩, ?_⟩
      · intro b hb
        obtain ⟨hb, hlt⟩ := List.mem_filter.mp hb
        exact hpost b hb (of_decide_eq_true hlt)
      · intro a ha b hb
        rcases List.mem_cons.mp hb with rfl | hb
        · refine hbounded a ?_
          rw [hes]
          exact List.mem_append_left _ (List.mem_of_mem_filter ha)
        · exact hrest.2.2 a ha b hb
    · exact List.pairwise_append.mpr hrest

/-- **A request keeps the windows in order**, unless it renews an expired entry in front of an
older window. -/
theorem Inv.after (h : Inv windowSec r.now es) (hwindow : r.rule.windowSec = windowSec)
    (hr : InOrder maxEntries windowSec es r) :
    Inv windowSec r.now (RateLimit.after maxEntries es r) := by
  have hms : r.rule.windowMs = windowSec * 1000 := by rw [RateLimitRule.windowMs, hwindow]
  rcases after_cases maxEntries es r with ⟨e, he, -, hafter⟩ | ⟨hend, hafter⟩
  · -- The entry keeps its place and its window.
    obtain ⟨pre, post, hes, hset⟩ := Map.entries_set_of_some he
    have hsame : deadlines (RateLimit.after maxEntries es r) = deadlines es := by
      rw [hafter, deadlines, deadlines, hset, hes, List.map_append, List.map_append]
      rfl
    exact h.sublist (hsame ▸ List.Sublist.refl _)
  · rw [hafter, hms]
    cases hget : (prune maxEntries r.now es).get r.key with
    | none =>
      refine (h.sublist (deadlines_prune maxEntries r.now es)).push ?_
      rw [deadlines, Map.entries_set_of_none hget, List.map_append]
      rfl
    | some e =>
      obtain ⟨hroom, hprune⟩ := size_lt_of_get_prune hend hget
      rw [hprune] at hget ⊢
      obtain ⟨pre, post, hes, hset⟩ := Map.entries_set_of_some hget
      have hold : deadlines es =
          (pre.map fun p => p.2.resetAt) ++ e.resetAt :: post.map fun p => p.2.resetAt := by
        rw [deadlines, hes, List.map_append]
        rfl
      refine h.renew hold ?_ ?_
      · rw [deadlines, hset, List.map_append]
        rfl
      · intro b hb hlt
        obtain ⟨p, hp, rfl⟩ := List.mem_map.mp hb
        have hstart := hr hroom pre e post hes (hend e hget) p hp (decide_eq_true hlt)
        rw [Entry.startedAt] at hstart
        omega

/-- **The oldest windows go first**, when the windows stand in order. -/
theorem Inv.oldestFirst (h : Inv windowSec r.now es) (hwindow : r.rule.windowSec = windowSec) :
    OldestFirst maxEntries windowSec es r := by
  intro k e he hrun hgone k' e' he'
  have hms : r.rule.windowMs = windowSec * 1000 := by rw [RateLimitRule.windowMs, hwindow]
  have hbound : e.resetAt ≤ r.now + windowSec * 1000 :=
    h.bounded e.resetAt (List.mem_map.mpr ⟨(k, e), Map.mem_entries_iff.mpr he, rfl⟩)
  suffices hle : e.resetAt ≤ e'.resetAt by
    rw [Entry.startedAt, Entry.startedAt]
    omega
  rcases after_cases maxEntries es r with ⟨e₀, he₀, -, hafter⟩ | ⟨-, hafter⟩
  · -- Nothing is dropped.
    rw [hafter, Map.get_set] at hgone
    split at hgone
    · cases hgone
    · cases hgone.symm.trans he
  · rw [hafter] at hgone he'
    rw [Map.get_set] at hgone
    split at hgone
    · cases hgone
    rw [Map.get_set] at he'
    split at he'
    · obtain rfl := Option.some.inj he'
      rw [hms]
      exact hbound
    have hkept : (unexpired r.now es).get k = some e := by
      rw [unexpired, Map.get_filter, he, Option.filter_some, hrun]
      rfl
    rw [prune] at hgone he'
    split at hgone
    · cases hgone.symm.trans he
    · split at hgone
      · cases hgone.symm.trans hkept
      next hroom hfull =>
        rw [if_neg hroom, if_neg hfull] at he'
        -- The dropped window stands before the kept one.
        have hordered : (unexpired r.now es).entries.Pairwise fun p q =>
            p.2.resetAt ≤ q.2.resetAt := by
          have hmap := h.ordered
          rw [deadlines, List.filter_map, List.pairwise_map] at hmap
          exact hmap
        have hmem := Map.mem_entries_iff.mpr hkept
        rw [← List.take_append_drop (max 1 ((maxEntries + 9) / 10)) (unexpired r.now es).entries]
          at hordered hmem
        rcases List.mem_append.mp hmem with hdropped | hstays
        · exact (List.pairwise_append.mp hordered).2.2 _ hdropped _ (Map.mem_entries_iff.mpr he')
        · cases hgone.symm.trans (Map.mem_entries_iff.mp hstays)

end

/-- **The oldest windows go first** in every run, with a clock that does not go back and windows of
one length, whose requests renew no expired entry in front of an older window. -/
theorem along_oldestFirst {maxEntries windowSec : ℕ} {rs : List Request}
    (hclock : rs.Pairwise fun r r' => r.now ≤ r'.now)
    (hwindow : ∀ r ∈ rs, r.rule.windowSec = windowSec)
    (h : Along maxEntries (InOrder maxEntries windowSec) Map.empty rs) :
    Along maxEntries (OldestFirst maxEntries windowSec) Map.empty rs := by
  have hrun : ∀ (rs : List Request) (es : Entries),
      rs.Pairwise (fun r r' => r.now ≤ r'.now) → (∀ r ∈ rs, r.rule.windowSec = windowSec) →
      (∀ r ∈ rs, Inv windowSec r.now es) →
      Along maxEntries (InOrder maxEntries windowSec) es rs →
      Along maxEntries (OldestFirst maxEntries windowSec) es rs := by
    intro rs
    induction rs with
    | nil => exact fun _ _ _ _ _ => trivial
    | cons r rs ih =>
      intro es hclock hwindow hinv ⟨hr, hrs⟩
      obtain ⟨hnow, hclock⟩ := List.pairwise_cons.mp hclock
      obtain ⟨hw, hwindow⟩ := List.forall_mem_cons.mp hwindow
      have hfirst := hinv r List.mem_cons_self
      refine ⟨hfirst.oldestFirst hw, ih _ hclock hwindow (fun r' hr' => ?_) hrs⟩
      exact (hfirst.after hw hr).mono (hnow r' hr')
  exact hrun rs Map.empty hclock hwindow (fun r _ => inv_empty windowSec r.now) h

/-- Two clients in a table of one entry. -/
theorem along_oldestFirst_two :
    let bucket : RateLimitRule := ⟨"t", 1, 1⟩
    Along 1 (OldestFirst 1 1) Map.empty [⟨"a", bucket, 0⟩, ⟨"b", bucket, 500⟩] := by
  intro bucket
  refine along_oldestFirst (by decide) (by decide) ⟨?_, ?_, trivial⟩
  · intro _ pre e post hes
    cases pre <;> cases hes
  · intro hroom
    exact absurd hroom (by decide)

/-- Five requests in a table of three entries: `a` comes back when its window has ended. -/
def renewed : List Request :=
  let bucket : RateLimitRule := ⟨"t", 1, 1⟩
  [⟨"a", bucket, 0⟩, ⟨"b", bucket, 500⟩, ⟨"a", bucket, 1000⟩, ⟨"c", bucket, 1100⟩,
    ⟨"d", bucket, 1200⟩]

/-- **A renewed window is dropped before an older one**: the window `a` began at 1000 makes room for
`d`, and the one `b` began at 500 stays. -/
theorem evicts_newer :
    ¬ ∀ (maxEntries windowSec : ℕ) (rs : List Request), 1 ≤ maxEntries →
      rs.Pairwise (fun r r' => r.now ≤ r'.now) → (∀ r ∈ rs, r.rule.windowSec = windowSec) →
        Along maxEntries (OldestFirst maxEntries windowSec) Map.empty rs := by
  intro h
  obtain ⟨-, -, -, -, hlast, -⟩ := h 3 1 renewed (by decide) (by decide) (by decide)
  have hle := hlast "t:a" ⟨1, 2000⟩ (by decide) (by decide) (by decide) "t:b" ⟨1, 1500⟩ (by decide)
  exact absurd hle (by decide)

end BoingObserver.RateLimit
