import Mathlib.Data.List.Induction

/-!
# Overlapping loads

A view shows what its loads bring.  A load is started for the current key, when the
key changes or to refresh; loads settle in any order, and each settlement acts on
the view, whatever was started or settled in between.

* `run_invariant`: an invariant of runs whose steps are all allowed.
* `Rules`: which settlements show the newest load's data, and which leave it shown.
* `run_neverStale`: in runs that keep to the rules, nothing but the newest load's
  data is shown once it has succeeded.
-/

namespace BoingObserver.Overlap

/-! ## Runs -/

section

variable {σ ι : Type}

def run (step : σ → ι → σ) (s : σ) (events : List ι) : σ := events.foldl step s

theorem run_append (step : σ → ι → σ) (s : σ) (events later : List ι) :
    run step s (events ++ later) = run step (run step s events) later :=
  List.foldl_append

theorem run_concat (step : σ → ι → σ) (s : σ) (events : List ι) (e : ι) :
    run step s (events ++ [e]) = step (run step s events) e :=
  run_append step s events [e]

/-- Every event of a run is allowed in the state it happens in. -/
def AllAllowed (step : σ → ι → σ) (allowed : σ → ι → Prop) (s : σ) (events : List ι) : Prop :=
  ∀ earlier e, earlier ++ [e] <+: events → allowed (run step s earlier) e

theorem allAllowed_nil {step : σ → ι → σ} {allowed : σ → ι → Prop} {s : σ} :
    AllAllowed step allowed s [] := by
  intro earlier e h
  exact absurd (List.prefix_nil.mp h) (List.append_ne_nil_of_right_ne_nil _ (List.cons_ne_nil _ _))

theorem allAllowed_cons {step : σ → ι → σ} {allowed : σ → ι → Prop} {s : σ} {e : ι}
    {events : List ι} (he : allowed s e) (h : AllAllowed step allowed (step s e) events) :
    AllAllowed step allowed s (e :: events) := by
  intro earlier e' hp
  cases earlier with
  | nil =>
    obtain ⟨rfl, -⟩ := List.cons_prefix_cons.mp hp
    exact he
  | cons e₁ earlier =>
    rw [List.cons_append] at hp
    obtain ⟨rfl, hp'⟩ := List.cons_prefix_cons.mp hp
    exact h earlier e' hp'

theorem AllAllowed.before {step : σ → ι → σ} {allowed : σ → ι → Prop} {s : σ}
    {events events' : List ι} (h : AllAllowed step allowed s events) (hp : events' <+: events) :
    AllAllowed step allowed s events' :=
  fun earlier e he => h earlier e (he.trans hp)

theorem AllAllowed.of_append {step : σ → ι → σ} {allowed : σ → ι → Prop} {s : σ}
    {events later : List ι} (h : AllAllowed step allowed s (events ++ later)) :
    AllAllowed step allowed (run step s events) later := by
  intro earlier e he
  rw [← run_append]
  refine h (events ++ earlier) e ?_
  rw [List.append_assoc]
  exact (List.prefix_append_right_inj events).mpr he

/-- **An invariant that allowed steps keep** holds after a run of allowed steps. -/
theorem run_invariant {step : σ → ι → σ} {allowed : σ → ι → Prop} {P : σ → Prop} {s : σ}
    (hinit : P s) (hstep : ∀ s e, P s → allowed s e → P (step s e)) {events : List ι}
    (h : AllAllowed step allowed s events) : P (run step s events) := by
  induction events using List.reverseRecOn with
  | nil => exact hinit
  | append_singleton events e ih =>
    rw [run_concat]
    exact hstep _ e (ih (h.before (List.prefix_append _ _))) (h events e (List.prefix_refl _))

end

/-! ## Loads -/

structure Load (κ : Type) where
  id : ℕ
  key : κ
  refresh : Bool

/-- How a view reacts: a load starts, a load settles; and what is shown. -/
structure Loader (δ ε σ : Type) where
  initial : σ
  start : Bool → σ → σ
  settle : Bool → Except ε δ → σ → σ
  shown : σ → Option δ

structure State (κ δ ε σ : Type) where
  key : κ
  /-- The load started last, and how it settled. -/
  newest : Load κ
  outcome : Option (Except ε δ)
  inFlight : List (Load κ)
  view : σ

inductive Event (κ δ ε : Type)
  | switch (key : κ)
  | refresh
  | settle (id : ℕ) (r : Except ε δ)

section

variable {κ δ ε σ : Type}

def begin (L : Loader δ ε σ) (s : State κ δ ε σ) (key : κ) (refresh : Bool) : State κ δ ε σ :=
  let l : Load κ := ⟨s.newest.id + 1, key, refresh⟩
  { key
    newest := l
    outcome := none
    inFlight := s.inFlight ++ [l]
    view := L.start refresh s.view }

def mount (L : Loader δ ε σ) (key : κ) : State κ δ ε σ :=
  { key
    newest := ⟨0, key, false⟩
    outcome := none
    inFlight := [⟨0, key, false⟩]
    view := L.start false L.initial }

def settle (L : Loader δ ε σ) (s : State κ δ ε σ) (id : ℕ) (r : Except ε δ) : State κ δ ε σ :=
  match s.inFlight.find? (·.id = id) with
  | none => s
  | some l =>
    { s with
      outcome := if id = s.newest.id then some r else s.outcome
      inFlight := s.inFlight.filter (·.id ≠ id)
      view := L.settle l.refresh r s.view }

def step [DecidableEq κ] (L : Loader δ ε σ) (s : State κ δ ε σ) :
    Event κ δ ε → State κ δ ε σ
  | .switch key => if key = s.key then s else begin L s key false
  | .refresh => begin L s s.key true
  | .settle id r => settle L s id r

/-- When nothing is in flight and the load started last succeeded, it was started for the current
key and its data is shown. -/
def NeverStale (L : Loader δ ε σ) (s : State κ δ ε σ) : Prop :=
  s.inFlight = [] → ∀ d, s.outcome = some (.ok d) →
    s.newest.key = s.key ∧ L.shown s.view = some d

/-- Where the newest load may succeed, and which late settlements of others are harmless. -/
structure Rules (L : Loader δ ε σ) where
  clear : σ → Prop
  harmless : Bool → Except ε δ → Prop
  shown_of_clear : ∀ refresh d v, clear v → L.shown (L.settle refresh (.ok d) v) = some d
  shown_of_harmless : ∀ refresh r v, harmless refresh r →
    L.shown (L.settle refresh r v) = L.shown v

/-- The newest load succeeds only on a clear view, and once it has, others settle harmlessly. -/
def Orderly {L : Loader δ ε σ} (R : Rules L) (s : State κ δ ε σ) : Event κ δ ε → Prop
  | .settle id r => ∀ l ∈ s.inFlight, l.id = id →
      if id = s.newest.id then ∀ d, r = .ok d → R.clear s.view
      else ∀ d, s.outcome = some (.ok d) → R.harmless l.refresh r
  | _ => True

/-- The newest load is for the current key, and shown once it has succeeded. -/
def Fresh (L : Loader δ ε σ) (s : State κ δ ε σ) : Prop :=
  s.newest.key = s.key ∧ ∀ d, s.outcome = some (.ok d) → L.shown s.view = some d

theorem fresh_begin (L : Loader δ ε σ) (s : State κ δ ε σ) (key : κ) (refresh : Bool) :
    Fresh L (begin L s key refresh) := by
  refine ⟨rfl, ?_⟩
  intro d h
  cases h

theorem fresh_settle {L : Loader δ ε σ} {R : Rules L} {s : State κ δ ε σ} {id : ℕ}
    {r : Except ε δ} (h : Fresh L s) (ho : Orderly R s (.settle id r)) :
    Fresh L (settle L s id r) := by
  rw [settle]
  split
  next => exact h
  next l hl =>
    have hmem : l ∈ s.inFlight := List.mem_of_find?_eq_some hl
    have hid : l.id = id := by simpa using List.find?_some hl
    have horder := ho l hmem hid
    refine ⟨h.1, ?_⟩
    intro d hd
    change (if id = s.newest.id then some r else s.outcome) = _ at hd
    by_cases hn : id = s.newest.id
    · rw [if_pos hn] at hd horder
      obtain rfl := Option.some.inj hd
      exact R.shown_of_clear _ _ _ (horder d rfl)
    · rw [if_neg hn] at hd horder
      exact (R.shown_of_harmless _ _ _ (horder d hd)).trans (h.2 d hd)

variable [DecidableEq κ]

/-- **An orderly step keeps the view fresh.** -/
theorem fresh_step {L : Loader δ ε σ} {R : Rules L} {s : State κ δ ε σ} {e : Event κ δ ε}
    (h : Fresh L s) (ho : Orderly R s e) : Fresh L (step L s e) := by
  cases e with
  | switch key =>
    rw [step]
    split
    · exact h
    · exact fresh_begin L s key false
  | refresh => exact fresh_begin L s s.key true
  | settle id r => exact fresh_settle h ho

/-- **In an orderly run nothing stale is shown.** -/
theorem run_neverStale {L : Loader δ ε σ} (R : Rules L) {key : κ} {events : List (Event κ δ ε)}
    (h : AllAllowed (step L) (Orderly R) (mount L key) events) :
    NeverStale L (run (step L) (mount L key) events) := by
  have hinit : Fresh L (mount L key) := by
    refine ⟨rfl, ?_⟩
    intro d hd
    cases hd
  have hfresh := run_invariant hinit (fun s e => fresh_step) h
  intro _ d hd
  exact ⟨hfresh.1, hfresh.2 d hd⟩

end

end BoingObserver.Overlap
