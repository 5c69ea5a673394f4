import BoingObserver.Overlap
import Mathlib.Algebra.Order.Ring.Int
import Mathlib.Logic.Function.Basic

/-!
# Loads shared by views

Views show what their keys stand for.  They share one table of loads: a view that asks for a key
gets the load that is stored under it, or starts one.  A load that brings nothing is forgotten
after a pause, any other is kept.  A view that goes on to another key leaves its subscriptions
behind, which come too late then.

* `good_step`: every event keeps what holds of the loads and the views (`Good`).
* `Good.shown`: a view shows what a load of its own key has brought.
* `Good.again`: a key is loaded again only when the load before brought nothing, a pause ago.
-/

namespace BoingObserver.SharedLoads


structure Request (κ α : Type) where
  key : κ
  startedAt : ℤ
  /-- When it settled, and what it brought. -/
  outcome : Option (ℤ × Option α)

structure Subscription where
  view : ℕ
  generation : ℕ
  request : ℕ

structure View (κ α : Type) where
  key : Option κ
  generation : ℕ
  shown : Option α

structure State (κ α : Type) where
  now : ℤ
  /-- The requests, and how many there are. -/
  requests : ℕ → Option (Request κ α)
  next : ℕ
  /-- The table: the request of a key. -/
  entries : κ → Option ℕ
  /-- The requests that brought nothing and are to be forgotten. -/
  timers : List ℕ
  views : ℕ → View κ α
  subscriptions : List Subscription

inductive Event (κ α : Type)
  /-- A view goes on to a key, or to none. -/
  | watch (v : ℕ) (key : Option κ)
  | settle (id : ℕ) (a : Option α)
  | deliver (i : ℕ)
  | fire (id : ℕ)
  | tick (now : ℤ)

variable {κ α : Type}

def State.initial (now : ℤ) : State κ α where
  now := now
  requests _ := none
  next := 0
  entries _ := none
  timers := []
  views _ := ⟨none, 0, none⟩
  subscriptions := []

section

variable [DecidableEq κ]

def ask (s : State κ α) (k : κ) : ℕ × State κ α :=
  match s.entries k with
  | some id => (id, s)
  | none =>
    (s.next, { s with
      requests := Function.update s.requests s.next (some ⟨k, s.now, none⟩)
      next := s.next + 1
      entries := Function.update s.entries k (some s.next) })

def leave (s : State κ α) (v : ℕ) (key : Option κ) : State κ α :=
  { s with views := Function.update s.views v ⟨key, (s.views v).generation + 1, none⟩ }

def subscribe (s : State κ α) (v id : ℕ) : State κ α :=
  { s with subscriptions := s.subscriptions ++ [⟨v, (s.views v).generation, id⟩] }

def watch (s : State κ α) (v : ℕ) (key : Option κ) : State κ α :=
  match key with
  | none => leave s v none
  | some k =>
    let (id, s) := ask (leave s v (some k)) k
    subscribe s v id

def settle (s : State κ α) (id : ℕ) (a : Option α) : State κ α :=
  match s.requests id with
  | some ⟨k, t, none⟩ =>
    { s with
      requests := Function.update s.requests id (some ⟨k, t, some (s.now, a)⟩)
      timers := if a.isNone then s.timers ++ [id] else s.timers }
  | _ => s

def deliver (s : State κ α) (i : ℕ) : State κ α :=
  match s.subscriptions[i]? with
  | none => s
  | some sub =>
    match (s.requests sub.request).bind Request.outcome with
    | none => s
    | some (_, a) =>
      let s := { s with subscriptions := s.subscriptions.eraseIdx i }
      if (s.views sub.view).generation = sub.generation ∧ a.isSome then
        { s with views := Function.update s.views sub.view { s.views sub.view with shown := a } }
      else s

/-- The timer of a request that brought nothing; of no effect before its time. -/
def fire (pause : ℤ) (s : State κ α) (id : ℕ) : State κ α :=
  match s.requests id with
  | some ⟨k, _, some (t, _)⟩ =>
    if id ∈ s.timers ∧ t + pause ≤ s.now then
      { s with
        entries := Function.update s.entries k none
        timers := s.timers.filter (· ≠ id) }
    else s
  | _ => s

def step (pause : ℤ) (s : State κ α) : Event κ α → State κ α
  | .watch v key => watch s v key
  | .settle id a => settle s id a
  | .deliver i => deliver s i
  | .fire id => fire pause s id
  | .tick now => { s with now := max s.now now }

end

/-! ## What holds in every run -/

/-- The request brought nothing, a pause before `now`. -/
def Lapsed (pause now : ℤ) (r : Request κ α) : Prop := ∃ t, r.outcome = some (t, none) ∧ t + pause ≤ now

theorem Lapsed.mono {pause now now' : ℤ} {r : Request κ α} (h : Lapsed pause now r) (hle : now ≤ now') :
    Lapsed pause now' r := by
  obtain ⟨t, hout, ht⟩ := h
  exact ⟨t, hout, ht.trans hle⟩

structure Sound (pause : ℤ) (s : State κ α) : Prop where
  lt_next : ∀ id r, s.requests id = some r → id < s.next
  entry : ∀ k id, s.entries k = some id → ∃ r, s.requests id = some r ∧ r.key = k
  nodup : s.timers.Nodup
  timer : ∀ id ∈ s.timers, ∃ r t, s.requests id = some r ∧ r.outcome = some (t, none) ∧
    s.entries r.key = some id
  /-- A request that is stored no more was forgotten. -/
  forgotten : ∀ id r, s.requests id = some r → s.entries r.key ≠ some id → Lapsed pause s.now r
  again : ∀ i j r r', s.requests i = some r → s.requests j = some r' → i < j → r.key = r'.key →
    Lapsed pause r'.startedAt r

structure Shows (s : State κ α) : Prop where
  le_generation : ∀ sub ∈ s.subscriptions, sub.generation ≤ (s.views sub.view).generation
  subscribed : ∀ sub ∈ s.subscriptions, sub.generation = (s.views sub.view).generation →
    ∃ r, s.requests sub.request = some r ∧ (s.views sub.view).key = some r.key
  shown : ∀ v a, (s.views v).shown = some a →
    ∃ id r t, s.requests id = some r ∧ (s.views v).key = some r.key ∧ r.outcome = some (t, some a)

structure Good (pause : ℤ) (s : State κ α) : Prop extends Sound pause s, Shows s

theorem good_initial (pause now : ℤ) : Good pause (State.initial now : State κ α) where
  lt_next _ _ h := by cases h
  entry _ _ h := by cases h
  nodup := List.nodup_nil
  timer _ h := by cases h
  forgotten _ _ h := by cases h
  again _ _ _ _ h := by cases h
  le_generation _ h := by cases h
  subscribed _ h := by cases h
  shown _ _ h := by cases h

/-! ## Asking -/

section

variable [DecidableEq κ] {pause : ℤ} {s : State κ α}

/-- **What asking does**: it finds the stored request, or starts one. -/
theorem ask_cases (s : State κ α) (k : κ) :
    (∃ id, s.entries k = some id ∧ ask s k = (id, s)) ∨
    s.entries k = none ∧ ask s k = (s.next, { s with
      requests := Function.update s.requests s.next (some ⟨k, s.now, none⟩)
      next := s.next + 1
      entries := Function.update s.entries k (some s.next) }) := by
  rw [ask]
  cases h : s.entries k with
  | none => exact Or.inr ⟨rfl, rfl⟩
  | some id => exact Or.inl ⟨id, rfl, rfl⟩

theorem sound_ask (h : Sound pause s) (k : κ) : Sound pause (ask s k).2 := by
  rcases ask_cases s k with ⟨id, -, hask⟩ | ⟨hnone, hask⟩
  · rw [hask]
    exact h
  · rw [hask]
    have hold : ∀ {id r}, s.requests id = some r →
        Function.update s.requests s.next (some ⟨k, s.now, none⟩) id = some r := by
      intro id r hr
      rw [Function.update_of_ne (h.lt_next id r hr).ne]
      exact hr
    have hcases : ∀ {id r}, Function.update s.requests s.next (some ⟨k, s.now, none⟩) id = some r →
        (id = s.next ∧ r = ⟨k, s.now, none⟩) ∨ s.requests id = some r := by
      intro id r hr
      by_cases hid : id = s.next
      · subst hid
        rw [Function.update_self] at hr
        exact Or.inl ⟨rfl, (Option.some.inj hr).symm⟩
      · rw [Function.update_of_ne hid] at hr
        exact Or.inr hr
    -- A request of this key that is older is stored no more.
    have holder : ∀ {id r}, s.requests id = some r → r.key = k → Lapsed pause s.now r := by
      rintro id r hr rfl
      refine h.forgotten id r hr ?_
      rw [hnone]
      rintro ⟨⟩
    refine ⟨fun id r hr => ?_, fun k' id he => ?_, h.nodup, fun id hid => ?_, fun id r hr he => ?_,
      fun i j r r' hi hj hij hkey => ?_⟩
    · rcases hcases hr with ⟨rfl, -⟩ | hr
      · exact Nat.lt_succ_self _
      · exact Nat.lt_succ_of_lt (h.lt_next id r hr)
    · change Function.update s.entries k (some s.next) k' = some id at he
      by_cases hk : k' = k
      · subst hk
        rw [Function.update_self] at he
        obtain rfl := Option.some.inj he
        exact ⟨_, Function.update_self _ _ _, rfl⟩
      · rw [Function.update_of_ne hk] at he
        obtain ⟨r, hr, hrk⟩ := h.entry k' id he
        exact ⟨r, hold hr, hrk⟩
    · obtain ⟨r, t, hr, hout, he⟩ := h.timer id hid
      refine ⟨r, t, hold hr, hout, ?_⟩
      have hne : r.key ≠ k := by
        rintro rfl
        cases hnone.symm.trans he
      change Function.update s.entries k (some s.next) r.key = some id
      rw [Function.update_of_ne hne]
      exact he
    · change Function.update s.entries k (some s.next) r.key ≠ some id at he
      rcases hcases hr with ⟨rfl, rfl⟩ | hr
      · exact absurd (Function.update_self _ _ _) he
      · by_cases hk : r.key = k
        · exact holder hr hk
        · rw [Function.update_of_ne hk] at he
          exact h.forgotten id r hr he
    · rcases hcases hi with ⟨rfl, rfl⟩ | hi
      · rcases hcases hj with ⟨rfl, -⟩ | hj
        · exact absurd hij (lt_irrefl _)
        · exact absurd (h.lt_next j r' hj) (not_lt.mpr hij.le)
      · rcases hcases hj with ⟨rfl, rfl⟩ | hj
        · exact holder hi hkey
        · exact h.again i j r r' hi hj hij hkey

theorem requests_ask (h : Sound pause s) (k : κ) :
    (∃ r, (ask s k).2.requests (ask s k).1 = some r ∧ r.key = k) ∧
      (∀ id r, s.requests id = some r → (ask s k).2.requests id = some r) ∧
      (ask s k).2.views = s.views ∧ (ask s k).2.subscriptions = s.subscriptions := by
  rcases ask_cases s k with ⟨id, he, hask⟩ | ⟨-, hask⟩
  · rw [hask]
    exact ⟨h.entry k id he, fun _ _ hr => hr, rfl, rfl⟩
  · rw [hask]
    refine ⟨⟨_, Function.update_self _ _ _, rfl⟩, fun id r hr => ?_, rfl, rfl⟩
    change Function.update _ _ _ _ = _
    rw [Function.update_of_ne (h.lt_next id r hr).ne]
    exact hr

/-! ## Settling and forgetting -/

omit [DecidableEq κ] in
theorem settle_cases (s : State κ α) (id : ℕ) (a : Option α) :
    settle s id a = s ∨ ∃ k t, s.requests id = some ⟨k, t, none⟩ ∧ settle s id a = { s with
      requests := Function.update s.requests id (some ⟨k, t, some (s.now, a)⟩)
      timers := if a.isNone then s.timers ++ [id] else s.timers } := by
  rw [settle]
  split
  next k t h => exact Or.inr ⟨k, t, h, rfl⟩
  next => exact Or.inl rfl

omit [DecidableEq κ] in
theorem sound_settle (h : Sound pause s) (id : ℕ) (a : Option α) : Sound pause (settle s id a) := by
  rcases settle_cases s id a with hsame | ⟨k, t, hid, hset⟩
  · rwa [hsame]
  · rw [hset]
    set r₁ : Request κ α := ⟨k, t, some (s.now, a)⟩
    have hcases : ∀ {j r}, Function.update s.requests id (some r₁) j = some r →
        (j = id ∧ r = r₁) ∨ (j ≠ id ∧ s.requests j = some r) := by
      intro j r hr
      by_cases hj : j = id
      · subst hj
        rw [Function.update_self] at hr
        exact Or.inl ⟨rfl, (Option.some.inj hr).symm⟩
      · rw [Function.update_of_ne hj] at hr
        exact Or.inr ⟨hj, hr⟩
    have hold : ∀ {j r}, j ≠ id → s.requests j = some r →
        Function.update s.requests id (some r₁) j = some r := by
      intro j r hj hr
      rw [Function.update_of_ne hj]
      exact hr
    -- The request is pending, so it has not lapsed.
    have hpending : ∀ {now}, ¬ Lapsed pause now (⟨k, t, none⟩ : Request κ α) := by
      rintro now ⟨_, ⟨⟩, -⟩
    have hstored : s.entries k = some id := by
      by_contra he
      exact hpending (h.forgotten id _ hid he)
    have htimer : ∀ j ∈ s.timers, j ≠ id := by
      rintro j hj rfl
      obtain ⟨r, t', hr, hout, -⟩ := h.timer j hj
      obtain rfl := Option.some.inj (hid.symm.trans hr)
      cases hout
    refine ⟨fun j r hr => ?_, fun k' j he => ?_, ?_, fun j hj => ?_, fun j r hr he => ?_,
      fun i j r r' hi hj hij hkey => ?_⟩
    · rcases hcases hr with ⟨rfl, -⟩ | ⟨-, hr⟩
      · exact h.lt_next j _ hid
      · exact h.lt_next j r hr
    · obtain ⟨r, hr, hk⟩ := h.entry k' j he
      by_cases hj : j = id
      · subst hj
        obtain rfl := Option.some.inj (hid.symm.trans hr)
        exact ⟨r₁, Function.update_self _ _ _, hk⟩
      · exact ⟨r, hold hj hr, hk⟩
    · change (if a.isNone then s.timers ++ [id] else s.timers).Nodup
      split
      · refine List.nodup_append.mpr ⟨h.nodup, List.pairwise_singleton _ _, fun j hj j' hj' => ?_⟩
        rw [List.mem_singleton.mp hj']
        exact htimer j hj
      · exact h.nodup
    · change j ∈ (if a.isNone then s.timers ++ [id] else s.timers) at hj
      have hor : j ∈ s.timers ∨ (j = id ∧ a = none) := by
        split at hj
        next ha =>
          rcases List.mem_append.mp hj with hj | hj
          · exact Or.inl hj
          · exact Or.inr ⟨List.mem_singleton.mp hj, Option.isNone_iff_eq_none.mp ha⟩
        next => exact Or.inl hj
      rcases hor with hj | ⟨rfl, rfl⟩
      · obtain ⟨r, t', hr, hout, he⟩ := h.timer j hj
        exact ⟨r, t', hold (htimer j hj) hr, hout, he⟩
      · exact ⟨r₁, s.now, Function.update_self _ _ _, rfl, hstored⟩
    · rcases hcases hr with ⟨rfl, rfl⟩ | ⟨-, hr⟩
      · exact absurd hstored he
      · exact h.forgotten j r hr he
    · rcases hcases hi with ⟨rfl, rfl⟩ | ⟨-, hi₀⟩
      · rcases hcases hj with ⟨rfl, -⟩ | ⟨-, hj₀⟩
        · exact absurd hij (lt_irrefl j)
        · exact absurd (h.again i j _ r' hid hj₀ hij hkey) hpending
      · rcases hcases hj with ⟨rfl, rfl⟩ | ⟨-, hj₀⟩
        · exact h.again i j r ⟨k, t, none⟩ hi₀ hid hij hkey
        · exact h.again i j r r' hi₀ hj₀ hij hkey

theorem fire_cases (pause : ℤ) (s : State κ α) (id : ℕ) :
    fire pause s id = s ∨ ∃ k t t' a, s.requests id = some ⟨k, t', some (t, a)⟩ ∧ id ∈ s.timers ∧
      t + pause ≤ s.now ∧ fire pause s id = { s with
        entries := Function.update s.entries k none
        timers := s.timers.filter (· ≠ id) } := by
  rw [fire]
  split
  next k t' t a h =>
    split
    next hdue => exact Or.inr ⟨k, t, t', a, h, hdue.1, hdue.2, rfl⟩
    next => exact Or.inl rfl
  next => exact Or.inl rfl

theorem sound_fire (h : Sound pause s) (id : ℕ) : Sound pause (fire pause s id) := by
  rcases fire_cases pause s id with hsame | ⟨k, t, t', a, hid, hmem, hdue, hfire⟩
  · rwa [hsame]
  · rw [hfire]
    obtain ⟨r, t₁, hr, hout, he⟩ := h.timer id hmem
    obtain rfl := Option.some.inj (hid.symm.trans hr)
    obtain ⟨rfl, rfl⟩ := Prod.mk.inj (Option.some.inj hout)
    have hother : ∀ {k'}, k' ≠ k → Function.update s.entries k none k' = s.entries k' :=
      fun hk => Function.update_of_ne hk _ _
    refine ⟨h.lt_next, fun k' j hj => ?_, h.nodup.filter _, fun j hj => ?_, fun j r hr hne => ?_,
      h.again⟩
    · change Function.update s.entries k none k' = some j at hj
      by_cases hk : k' = k
      · subst hk
        rw [Function.update_self] at hj
        cases hj
      · rw [hother hk] at hj
        exact h.entry k' j hj
    · obtain ⟨hj, hne⟩ := List.mem_filter.mp hj
      obtain ⟨r, t', hr, hout, hstored⟩ := h.timer j hj
      refine ⟨r, t', hr, hout, ?_⟩
      have hk : r.key ≠ k := by
        intro hk
        rw [hk, he] at hstored
        exact of_decide_eq_true hne (Option.some.inj hstored).symm
      change Function.update s.entries k none r.key = some j
      rw [hother hk]
      exact hstored
    · by_cases hjid : j = id
      · subst hjid
        obtain rfl := Option.some.inj (hid.symm.trans hr)
        exact ⟨_, rfl, hdue⟩
      · refine h.forgotten j r hr fun hstored => hne ?_
        have hk : r.key ≠ k := by
          intro hk
          rw [hk, he] at hstored
          exact hjid (Option.some.inj hstored).symm
        change Function.update s.entries k none r.key = some j
        rw [hother hk]
        exact hstored

/-! ## Views -/

omit [DecidableEq κ] in
/-- Requests that stay, and settle at most, keep what the views show. -/
theorem Shows.mono {s' : State κ α} (h : Shows s) (hviews : s'.views = s.views)
    (hsubs : ∀ sub ∈ s'.subscriptions, sub ∈ s.subscriptions)
    (hreq : ∀ id r, s.requests id = some r → ∃ r', s'.requests id = some r' ∧ r'.key = r.key ∧
      ∀ o, r.outcome = some o → r'.outcome = some o) : Shows s' where
  le_generation sub hsub := by
    rw [hviews]
    exact h.le_generation sub (hsubs sub hsub)
  subscribed sub hsub hgen := by
    rw [hviews] at hgen ⊢
    obtain ⟨r, hr, hkey⟩ := h.subscribed sub (hsubs sub hsub) hgen
    obtain ⟨r', hr', hk, -⟩ := hreq _ r hr
    exact ⟨r', hr', hk ▸ hkey⟩
  shown v a ha := by
    rw [hviews] at ha ⊢
    obtain ⟨id, r, t, hr, hkey, hout⟩ := h.shown v a ha
    obtain ⟨r', hr', hk, ho⟩ := hreq id r hr
    exact ⟨id, r', t, hr', hk ▸ hkey, ho _ hout⟩

omit [DecidableEq κ] in
theorem shows_settle (h : Shows s) (id : ℕ) (a : Option α) : Shows (settle s id a) := by
  rcases settle_cases s id a with hsame | ⟨k, t, hid, hset⟩
  · rwa [hsame]
  · rw [hset]
    refine h.mono rfl (fun _ hsub => hsub) fun j r hr => ?_
    by_cases hj : j = id
    · subst hj
      obtain rfl := Option.some.inj (hid.symm.trans hr)
      exact ⟨_, Function.update_self _ _ _, rfl, fun o ho => by cases ho⟩
    · exact ⟨r, (Function.update_of_ne hj _ _).trans hr, rfl, fun _ ho => ho⟩

omit [DecidableEq κ] in
theorem shows_leave (h : Shows s) (v : ℕ) (key : Option κ) : Shows (leave s v key) := by
  have hself : (leave s v key).views v = ⟨key, (s.views v).generation + 1, none⟩ :=
    Function.update_self _ _ _
  have hother : ∀ {w}, w ≠ v → (leave s v key).views w = s.views w := fun hw =>
    Function.update_of_ne hw _ _
  refine ⟨fun sub hsub => ?_, fun sub hsub hgen => ?_, fun w a ha => ?_⟩
  · have hle := h.le_generation sub hsub
    by_cases hv : sub.view = v
    · rw [hv] at hle ⊢
      rw [hself]
      exact hle.trans (Nat.le_succ _)
    · rw [hother hv]
      exact hle
  · have hle := h.le_generation sub hsub
    by_cases hv : sub.view = v
    · rw [hv, hself] at hgen
      rw [hv] at hle
      exact absurd (hgen ▸ hle) (Nat.not_succ_le_self _)
    · rw [hother hv] at hgen ⊢
      exact h.subscribed sub hsub hgen
  · by_cases hw : w = v
    · subst hw
      rw [hself] at ha
      cases ha
    · rw [hother hw] at ha ⊢
      exact h.shown w a ha

/-- **A view that goes on to a key** waits for a request of it. -/
theorem good_watch (h : Good pause s) (v : ℕ) (key : Option κ) : Good pause (watch s v key) := by
  have hleave : Good pause (leave s v key) :=
    ⟨⟨h.lt_next, h.entry, h.nodup, h.timer, h.forgotten, h.again⟩, shows_leave h.toShows v key⟩
  cases key with
  | none => exact hleave
  | some k =>
    rw [watch]
    dsimp only
    obtain ⟨⟨r, hr, hk⟩, hkept, hviews, hsubs⟩ := requests_ask hleave.toSound k
    have hsound := sound_ask hleave.toSound k
    have hshows : Shows (ask (leave s v (some k)) k).2 :=
      hleave.toShows.mono hviews (fun sub hsub => hsubs ▸ hsub)
        fun id r hr => ⟨r, hkept id r hr, rfl, fun _ ho => ho⟩
    set s' := (ask (leave s v (some k)) k).2
    refine ⟨⟨hsound.lt_next, hsound.entry, hsound.nodup, hsound.timer, hsound.forgotten,
      hsound.again⟩, fun sub hsub => ?_, fun sub hsub hgen => ?_, hshows.shown⟩
    · rcases List.mem_append.mp hsub with hsub | hsub
      · exact hshows.le_generation sub hsub
      · rw [List.mem_singleton.mp hsub]
        exact le_rfl
    · rcases List.mem_append.mp hsub with hsub | hsub
      · exact hshows.subscribed sub hsub hgen
      · rw [List.mem_singleton.mp hsub]
        have hself : (leave s v (some k)).views v = ⟨some k, (s.views v).generation + 1, none⟩ :=
          Function.update_self _ _ _
        refine ⟨r, hr, ?_⟩
        change (s'.views v).key = some r.key
        rw [hviews, hk, hself]

omit [DecidableEq κ] in
/-- **What is delivered** is what a request of the view's key brought. -/
theorem good_deliver (h : Good pause s) (i : ℕ) : Good pause (deliver s i) := by
  rw [deliver]
  split
  · exact h
  next sub hsub =>
    split
    · exact h
    next t a hout =>
      have herase : Good pause { s with subscriptions := s.subscriptions.eraseIdx i } :=
        ⟨⟨h.lt_next, h.entry, h.nodup, h.timer, h.forgotten, h.again⟩,
          h.toShows.mono rfl (fun sub hmem => List.mem_of_mem_eraseIdx hmem)
            fun id r hr => ⟨r, hr, rfl, fun _ ho => ho⟩⟩
      dsimp only
      split
      next hcurrent =>
        obtain ⟨r, hr, hkey⟩ := h.subscribed sub (List.mem_of_getElem? hsub) hcurrent.1.symm
        rw [hr] at hout
        have hself : Function.update s.views sub.view { s.views sub.view with shown := a } sub.view =
            { s.views sub.view with shown := a } := Function.update_self _ _ _
        have hother : ∀ {w}, w ≠ sub.view →
            Function.update s.views sub.view { s.views sub.view with shown := a } w = s.views w :=
          fun hw => Function.update_of_ne hw _ _
        refine ⟨⟨h.lt_next, h.entry, h.nodup, h.timer, h.forgotten, h.again⟩, fun sub' hsub' => ?_, fun sub' hsub' hgen => ?_, fun w b hb => ?_⟩
        · have hle := herase.le_generation sub' hsub'
          change _ ≤ (Function.update s.views sub.view _ sub'.view).generation
          by_cases hv : sub'.view = sub.view
          · rw [hv] at hle ⊢
            rw [hself]
            exact hle
          · rw [hother hv]
            exact hle
        · change sub'.generation = (Function.update s.views sub.view _ sub'.view).generation at hgen
          have hold : sub'.generation = (s.views sub'.view).generation ∧
              (Function.update s.views sub.view { s.views sub.view with shown := a } sub'.view).key =
                (s.views sub'.view).key := by
            by_cases hv : sub'.view = sub.view
            · rw [hv, hself] at hgen
              rw [hv, hself]
              exact ⟨hgen, rfl⟩
            · rw [hother hv] at hgen ⊢
              exact ⟨hgen, rfl⟩
          obtain ⟨r', hr', hkey'⟩ := herase.subscribed sub' hsub' hold.1
          exact ⟨r', hr', hold.2.trans hkey'⟩
        · change (Function.update s.views sub.view _ w).shown = some b at hb
          by_cases hw : w = sub.view
          · subst hw
            rw [hself] at hb
            obtain rfl : a = some b := hb
            exact ⟨sub.request, r, t, hr, (congrArg View.key hself).trans hkey, hout⟩
          · rw [hother hw] at hb
            obtain ⟨id, r', t', hr', hkey', hout'⟩ := h.shown w b hb
            exact ⟨id, r', t', hr', (congrArg View.key (hother hw)).trans hkey', hout'⟩
      next => exact herase

/-- Only a view itself goes on to another key. -/
theorem key_step (s : State κ α) (e : Event κ α) (v : ℕ) :
    ((step pause s e).views v).key =
      match e with
      | .watch w key => if v = w then key else (s.views v).key
      | _ => (s.views v).key := by
  have hleave : ∀ w key, ((leave s w key).views v).key = if v = w then key else (s.views v).key := by
    intro w key
    rw [leave]
    dsimp only
    rw [Function.update_apply]
    split
    · rfl
    · rfl
  cases e with
  | watch w key =>
    cases key with
    | none => exact hleave w none
    | some k =>
      have hviews : (ask (leave s w (some k)) k).2.views = (leave s w (some k)).views := by
        rcases ask_cases (leave s w (some k)) k with ⟨id, -, hask⟩ | ⟨-, hask⟩
        · rw [hask]
        · rw [hask]
      exact (congrArg (fun views => (views v).key) hviews).trans (hleave w (some k))
  | settle id a =>
    rcases settle_cases s id a with hsame | ⟨k, t, -, hset⟩
    · rw [step, hsame]
    · rw [step, hset]
  | deliver i =>
    rw [step, deliver]
    split
    · rfl
    · split
      · rfl
      · dsimp only
        split
        · dsimp only
          rw [Function.update_apply]
          split
          next hv => rw [hv]
          · rfl
        · rfl
  | fire id =>
    rcases fire_cases pause s id with hsame | ⟨k, t, t', a, -, -, -, hfire⟩
    · rw [step, hsame]
    · rw [step, hfire]
  | tick now => rfl

/-- **Every event keeps** what holds of the loads and the views. -/
theorem good_step (h : Good pause s) (e : Event κ α) : Good pause (step pause s e) := by
  cases e with
  | watch v key => exact good_watch h v key
  | settle id a => exact ⟨sound_settle h.toSound id a, shows_settle h.toShows id a⟩
  | deliver i => exact good_deliver h i
  | fire id =>
    refine ⟨sound_fire h.toSound id, ?_⟩
    rcases fire_cases pause s id with hsame | ⟨k, t, t', a, -, -, -, hfire⟩
    · rw [step, hsame]
      exact h.toShows
    · rw [step, hfire]
      exact h.toShows.mono rfl (fun _ hsub => hsub) fun id r hr => ⟨r, hr, rfl, fun _ ho => ho⟩
  | tick now =>
    refine ⟨⟨h.lt_next, h.entry, h.nodup, h.timer, fun id r hr he => ?_, h.again⟩, h.toShows.mono rfl
      (fun _ hsub => hsub) fun id r hr => ⟨r, hr, rfl, fun _ ho => ho⟩⟩
    exact (h.forgotten id r hr he).mono (le_max_left _ _)

end

end BoingObserver.SharedLoads
