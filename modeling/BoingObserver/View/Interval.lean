import BoingObserver.Latest
import Mathlib.Algebra.Order.Group.Int

/-!
# Polling a visible page

`useVisibleInterval`: a page's refresh runs on a timer that stops while the document is hidden, and
at once when the user comes back.  The document may turn hidden, and the timer fire, before the page
is told of it.

* `inv_step`: the timer is due within one period of the last refresh.
* `interval_exact`: when refreshes run, how far apart, and how stale a page can be.
-/

namespace BoingObserver.View.Interval

open Overlap (run run_concat AllAllowed run_invariant)
open Latest (LastWrite lastWrite_concat)

structure Call where
  at' : ℤ
  byTimer : Bool
  deriving DecidableEq

/-- The document, and what the effect of the hook keeps. -/
structure Page where
  clock : ℤ
  /-- `document.visibilityState === "hidden"` -/
  hidden : Bool
  /-- `delayMs` of the effect that runs; nothing when there is none, or it has nothing to do. -/
  delay : Option ℕ
  /-- `id`, as the time of its next turn. -/
  due : Option ℤ
  calls : List Call
  deriving DecidableEq

inductive Kind
  /-- The document turns hidden or visible. -/
  | turn (hidden : Bool)
  /-- `visibilitychange` is dispatched. -/
  | notify
  /-- The timer has its turn. -/
  | fire
  /-- The effect is cleaned up, and runs with `delayMs`. -/
  | effect (delayMs : Option ℤ)
  /-- The page is left. -/
  | unmount
  deriving DecidableEq

structure Event where
  now : ℤ
  kind : Kind

namespace Page

def initial (now : ℤ) (hidden : Bool) : Page := ⟨now, hidden, none, none, []⟩

/-- `saved.current()` -/
def call (p : Page) (now : ℤ) (byTimer : Bool) : Page :=
  { p with calls := p.calls ++ [⟨now, byTimer⟩] }

def start (p : Page) (now : ℤ) (d : ℕ) : Page :=
  match p.due with
  | some _ => p
  | none => { p with due := some (now + d) }

def stop (p : Page) : Page := { p with due := none }

/-- The interval's turn; the next comes one period later. -/
def tick (p : Page) (now : ℤ) (d : ℕ) : Page :=
  let p := { p with due := some (now + d) }
  if p.hidden then p else p.call now true

def onVisibility (p : Page) (now : ℤ) (d : ℕ) : Page :=
  if p.hidden then p.stop else (p.call now false).start now d

/-- `delayMs`, when the effect has something to do. -/
def periodOf (delayMs : Option ℤ) : Option ℕ := (delayMs.filter fun ms => 0 < ms).map Int.toNat

def runEffect (p : Page) (now : ℤ) (delayMs : Option ℤ) : Page :=
  let p := { p with due := none, delay := periodOf delayMs }
  match p.delay with
  | none => p
  | some d => if p.hidden then p else p.start now d

def react (p : Page) (now : ℤ) : Kind → Page
  | .turn hidden => { p with hidden }
  | .notify =>
    match p.delay with
    | none => p
    | some d => p.onVisibility now d
  | .fire =>
    match p.delay, p.due with
    | some d, some _ => p.tick now d
    | _, _ => p
  | .effect delayMs => p.runEffect now delayMs
  | .unmount => { p with due := none, delay := none }

def step (p : Page) (e : Event) : Page := { p with clock := e.now }.react e.now e.kind

end Page

/-- The clock does not run back, and the timer has its turn when it is due, at most `late`
milliseconds later. -/
def Punctual (late : ℕ) (p : Page) (e : Event) : Prop :=
  p.clock ≤ e.now ∧ ∀ t, p.due = some t → (e.kind = .fire → t ≤ e.now) ∧ e.now ≤ t + late

/-! ## One step -/

/-- The page is told of its visibility, or begins or ends its effect. -/
def Kind.looks : Kind → Bool
  | .turn _ => false
  | .fire => false
  | _ => true

inductive Move (p : Page) (e : Event) (p' : Page) : Prop
  | idle (hlooks : p.delay ≠ none → e.kind.looks = false) (hdue : p'.due = p.due)
      (hdelay : p'.delay = p.delay) (hcalls : p'.calls = p.calls)
  /-- The timer is off: there is no effect, or the document is hidden. -/
  | off (hlooks : e.kind.looks = true) (hdue : p'.due = none) (hcalls : p'.calls = p.calls)
      (hwhy : p'.delay = none ∨ p.hidden = true)
      (hdelay : ∀ k, p'.delay = some k → p.delay = some k ∨
        ∃ delayMs, e.kind = .effect delayMs ∧ Page.periodOf delayMs = some k)
  /-- The effect begins, and its timer. -/
  | began {delayMs : Option ℤ} {k : ℕ} (he : e.kind = .effect delayMs)
      (hk : Page.periodOf delayMs = some k) (hdue : p'.due = some (e.now + k))
      (hdelay : p'.delay = some k) (hcalls : p'.calls = p.calls)
  /-- The user comes back. -/
  | returned {k : ℕ} (hvisible : p.hidden = false) (hk : p.delay = some k)
      (hdelay : p'.delay = some k) (hdue : p'.due = some (p.due.getD (e.now + k)))
      (hcalls : p'.calls = p.calls ++ [⟨e.now, false⟩])
  /-- The timer has its turn. -/
  | fired {k : ℕ} {t : ℤ} (he : e.kind = .fire) (hvisible : p.hidden = false)
      (hk : p.delay = some k) (ht : p.due = some t) (hdelay : p'.delay = some k)
      (hdue : p'.due = some (e.now + k)) (hcalls : p'.calls = p.calls ++ [⟨e.now, true⟩])
  /-- The timer has its turn, and the document is hidden. -/
  | missed {k : ℕ} {t : ℤ} (he : e.kind = .fire) (hhidden : p.hidden = true)
      (hk : p.delay = some k) (ht : p.due = some t) (hdelay : p'.delay = some k)
      (hdue : p'.due = some (e.now + k)) (hcalls : p'.calls = p.calls)

/-- **One step**, case by case. -/
theorem move_step (p : Page) (e : Event) : Move p e (p.step e) := by
  obtain ⟨now, kind⟩ := e
  obtain ⟨clock, hidden, delay, due, calls⟩ := p
  cases kind with
  | turn hidden => exact .idle (fun _ => rfl) rfl rfl rfl
  | unmount => exact .off rfl rfl rfl (.inl rfl) fun k hk => by cases hk
  | notify =>
    cases delay with
    | none => exact .idle (fun h => absurd rfl h) rfl rfl rfl
    | some k =>
      cases hidden with
      | true => exact .off rfl rfl rfl (.inr rfl) fun _ hk => .inl hk
      | false =>
        cases due with
        | none => exact .returned rfl rfl rfl rfl rfl
        | some t => exact .returned rfl rfl rfl rfl rfl
  | fire =>
    cases delay with
    | none => exact .idle (fun _ => rfl) rfl rfl rfl
    | some k =>
      cases due with
      | none => exact .idle (fun _ => rfl) rfl rfl rfl
      | some t =>
        cases hidden with
        | true => exact .missed rfl rfl rfl rfl rfl rfl rfl
        | false => exact .fired rfl rfl rfl rfl rfl rfl rfl
  | effect delayMs =>
    have hreact : (Page.step ⟨clock, hidden, delay, due, calls⟩ ⟨now, .effect delayMs⟩) =
        match Page.periodOf delayMs with
        | none => ⟨now, hidden, none, none, calls⟩
        | some k => ⟨now, hidden, some k, if hidden then none else some (now + k), calls⟩ := by
      change Page.runEffect ⟨now, hidden, delay, due, calls⟩ now delayMs = _
      rw [Page.runEffect]
      cases Page.periodOf delayMs with
      | none => rfl
      | some k => cases hidden <;> rfl
    rw [hreact]
    cases hk : Page.periodOf delayMs with
    | none => exact .off rfl rfl rfl (.inl rfl) fun k hk => by cases hk
    | some k =>
      cases hidden with
      | true => exact .off rfl rfl rfl (.inr rfl) fun k' hk' => .inr ⟨delayMs, rfl, hk.trans hk'⟩
      | false => exact .began rfl hk rfl rfl rfl

theorem clock_step (p : Page) (e : Event) : (p.step e).clock = e.now := by
  obtain ⟨now, kind⟩ := e
  obtain ⟨clock, hidden, delay, due, calls⟩ := p
  cases kind with
  | turn hidden => rfl
  | unmount => rfl
  | notify => cases delay <;> cases hidden <;> cases due <;> rfl
  | fire => cases delay <;> cases due <;> cases hidden <;> rfl
  | effect delayMs =>
    change (Page.runEffect ⟨now, hidden, delay, due, calls⟩ now delayMs).clock = now
    rw [Page.runEffect]
    cases Page.periodOf delayMs <;> cases hidden <;> rfl

/-! ## Pace -/

/-- The effect polls every `d` milliseconds, or not at all. -/
def Every (d : ℕ) (e : Event) : Prop :=
  ∀ delayMs k, e.kind = .effect delayMs → Page.periodOf delayMs = some k → k = d

def timerCalls (p : Page) : List Call := p.calls.filter (·.byTimer)

structure Paced (d : ℕ) (p : Page) : Prop where
  quiet : p.delay = none → p.due = none
  period : ∀ k, p.delay = some k → k = d
  past : ∀ c ∈ p.calls, c.at' ≤ p.clock
  apart : ∀ c ∈ timerCalls p, ∀ t, p.due = some t → c.at' + d ≤ t
  spaced : (timerCalls p).Pairwise fun c c' => c.at' + (d : ℤ) ≤ c'.at'

section

variable {d late : ℕ} {p : Page} {e : Event}

theorem timerCalls_of_calls {p' : Page} (h : p'.calls = p.calls) : timerCalls p' = timerCalls p := by
  rw [timerCalls, h, timerCalls]

theorem timerCalls_append (now : ℤ) (byTimer : Bool) {p' : Page}
    (h : p'.calls = p.calls ++ [⟨now, byTimer⟩]) :
    timerCalls p' = timerCalls p ++ if byTimer then [⟨now, byTimer⟩] else [] := by
  rw [timerCalls, h, List.filter_append]
  cases byTimer <;> rfl

theorem quiet_step (h : Paced d p) (hnone : (p.step e).delay = none) : (p.step e).due = none := by
  rcases move_step p e with ⟨-, hdue, hdelay, -⟩ | ⟨-, hdue, -, -, -⟩ | ⟨-, -, -, hdelay, -⟩ |
    ⟨-, -, hdelay, -, -⟩ | ⟨-, -, -, -, hdelay, -, -⟩ | ⟨-, -, -, -, hdelay, -, -⟩
  · exact hdue.trans (h.quiet (hdelay.symm.trans hnone))
  · exact hdue
  · cases hdelay.symm.trans hnone
  · cases hdelay.symm.trans hnone
  · cases hdelay.symm.trans hnone
  · cases hdelay.symm.trans hnone

theorem period_step (h : Paced d p) (hevery : Every d e) {k : ℕ} (hk : (p.step e).delay = some k) :
    k = d := by
  rcases move_step p e with ⟨-, -, hdelay, -⟩ | ⟨-, -, -, -, hdelay⟩ | ⟨he, hperiod, -, hdelay, -⟩ |
    ⟨-, hold, hdelay, -, -⟩ | ⟨-, -, hold, -, hdelay, -, -⟩ | ⟨-, -, hold, -, hdelay, -, -⟩
  · exact h.period k (hdelay.symm.trans hk)
  · rcases hdelay k hk with hold | ⟨delayMs, he, hperiod⟩
    · exact h.period k hold
    · exact hevery delayMs k he hperiod
  · obtain rfl := Option.some.inj (hdelay.symm.trans hk)
    exact hevery _ _ he hperiod
  · exact h.period k (hold.trans (hdelay.symm.trans hk))
  · exact h.period k (hold.trans (hdelay.symm.trans hk))
  · exact h.period k (hold.trans (hdelay.symm.trans hk))

/-- A step refreshes once at most. -/
theorem calls_step (p : Page) (e : Event) :
    (p.step e).calls = p.calls ∨ ∃ byTimer, (p.step e).calls = p.calls ++ [⟨e.now, byTimer⟩] := by
  rcases move_step p e with ⟨-, -, -, hcalls⟩ | ⟨-, -, hcalls, -, -⟩ | ⟨-, -, -, -, hcalls⟩ |
    ⟨-, -, -, -, hcalls⟩ | ⟨-, -, -, -, -, -, hcalls⟩ | ⟨-, -, -, -, -, -, hcalls⟩
  · exact .inl hcalls
  · exact .inl hcalls
  · exact .inl hcalls
  · exact .inr ⟨false, hcalls⟩
  · exact .inr ⟨true, hcalls⟩
  · exact .inl hcalls

theorem past_step (h : Paced d p) (hclock : p.clock ≤ e.now) :
    ∀ c ∈ (p.step e).calls, c.at' ≤ (p.step e).clock := by
  rw [clock_step]
  intro c hc
  rcases calls_step p e with hcalls | ⟨byTimer, hcalls⟩
  · rw [hcalls] at hc
    exact (h.past c hc).trans hclock
  · rw [hcalls] at hc
    rcases List.mem_append.mp hc with hc | hc
    · exact (h.past c hc).trans hclock
    · rw [List.mem_singleton.mp hc]

/-- A period from now is one from every refresh so far. -/
theorem apart_now (h : Paced d p) (hclock : p.clock ≤ e.now) {k : ℕ} (hk : k = d) {c : Call}
    (hc : c ∈ timerCalls p) {t : ℤ} (ht : e.now + k = t) : c.at' + d ≤ t := by
  have hpast := h.past c (List.mem_filter.mp hc).1
  omega

theorem apart_step (h : Paced d p) (hclock : p.clock ≤ e.now) (hevery : Every d e) :
    ∀ c ∈ timerCalls (p.step e), ∀ t, (p.step e).due = some t → c.at' + d ≤ t := by
  intro c hc t ht
  rcases move_step p e with ⟨-, hdue, -, hcalls⟩ | ⟨-, hdue, -, -, -⟩ |
    ⟨he, hk, hdue, -, hcalls⟩ | ⟨-, hk, -, hdue, hcalls⟩ | ⟨-, -, hk, -, -, hdue, hcalls⟩ |
    ⟨-, -, hk, -, -, hdue, hcalls⟩
  · exact h.apart c (timerCalls_of_calls hcalls ▸ hc) t (hdue.symm.trans ht)
  · cases hdue.symm.trans ht
  · exact apart_now h hclock (hevery _ _ he hk) (timerCalls_of_calls hcalls ▸ hc)
      (Option.some.inj (hdue.symm.trans ht))
  · rw [timerCalls_append _ _ hcalls, if_neg Bool.false_ne_true, List.append_nil] at hc
    have hnext := Option.some.inj (hdue.symm.trans ht)
    cases hold : p.due with
    | none =>
      rw [hold] at hnext
      exact apart_now h hclock (h.period _ hk) hc hnext
    | some t' =>
      rw [hold] at hnext
      exact h.apart c hc t (hnext ▸ hold)
  · have hnext := Option.some.inj (hdue.symm.trans ht)
    rw [timerCalls_append _ _ hcalls, if_pos rfl] at hc
    rcases List.mem_append.mp hc with hc | hc
    · exact apart_now h hclock (h.period _ hk) hc hnext
    · rw [List.mem_singleton.mp hc, ← hnext, h.period _ hk]
  · exact apart_now h hclock (h.period _ hk) (timerCalls_of_calls hcalls ▸ hc)
      (Option.some.inj (hdue.symm.trans ht))

theorem spaced_step (h : Paced d p) (hpunctual : Punctual late p e) :
    (timerCalls (p.step e)).Pairwise fun c c' => c.at' + (d : ℤ) ≤ c'.at' := by
  have hsame : (p.step e).calls = p.calls →
      (timerCalls (p.step e)).Pairwise fun c c' => c.at' + (d : ℤ) ≤ c'.at' := fun hcalls =>
    timerCalls_of_calls hcalls ▸ h.spaced
  rcases move_step p e with ⟨-, -, -, hcalls⟩ | ⟨-, -, hcalls, -, -⟩ | ⟨-, -, -, -, hcalls⟩ |
    ⟨-, -, -, -, hcalls⟩ | ⟨he, -, -, ht, -, -, hcalls⟩ | ⟨-, -, -, -, -, -, hcalls⟩
  · exact hsame hcalls
  · exact hsame hcalls
  · exact hsame hcalls
  · rw [timerCalls_append _ _ hcalls, if_neg Bool.false_ne_true, List.append_nil]
    exact h.spaced
  · rw [timerCalls_append _ _ hcalls, if_pos rfl, List.pairwise_append]
    refine ⟨h.spaced, List.pairwise_singleton _ _, fun c hc c' hc' => ?_⟩
    rw [List.mem_singleton.mp hc']
    exact (h.apart c hc _ ht).trans ((hpunctual.2 _ ht).1 he)
  · exact hsame hcalls

/-- **One step** keeps the pace. -/
theorem paced_step (h : Paced d p) (hpunctual : Punctual late p e) (hevery : Every d e) :
    Paced d (p.step e) where
  quiet := quiet_step h
  period _ := period_step h hevery
  past := past_step h hpunctual.1
  apart := apart_step h hpunctual.1 hevery
  spaced := spaced_step h hpunctual

end

/-! ## Runs -/

/-- The page refreshes, or its effect begins, where a view loads by itself. -/
def Refreshes (p : Page) (e : Event) : Prop :=
  (p.step e).calls ≠ p.calls ∨ ∃ delayMs, e.kind = .effect delayMs

section

variable {late : ℕ} {p₀ : Page}

theorem refreshes_of_append {p : Page} {e : Event} {c : Call}
    (h : (p.step e).calls = p.calls ++ [c]) : Refreshes p e :=
  .inl fun hsame => List.cons_ne_nil c [] (List.append_cancel_left
    ((h.symm.trans hsame).trans (List.append_nil _).symm))

/-- **The timer's next turn** is at most one period after a refresh, or after a time at which the
document was hidden. -/
theorem due_run {events : List Event} (hinit : p₀.due = none) {t : ℤ} {k : ℕ}
    (hdue : (run Page.step p₀ events).due = some t)
    (hdelay : (run Page.step p₀ events).delay = some k) :
    ∃ before e after, events = before ++ e :: after ∧
      (Refreshes (run Page.step p₀ before) e ∨ (run Page.step p₀ before).hidden = true) ∧
        t ≤ e.now + k := by
  induction events using List.reverseRecOn generalizing t with
  | nil => exact absurd (hinit.symm.trans hdue) (by simp)
  | append_singleton events e ih =>
    rw [run_concat] at hdue hdelay
    set p := run Page.step p₀ events with hp
    have hearlier : ∀ {t}, p.due = some t → p.delay = some k →
        ∃ before e' after, events ++ [e] = before ++ e' :: after ∧
          (Refreshes (run Page.step p₀ before) e' ∨ (run Page.step p₀ before).hidden = true) ∧
            t ≤ e'.now + k := by
      intro t hdue hdelay
      obtain ⟨before, e', after, rfl, hwhat, ht⟩ := ih hdue hdelay
      exact ⟨before, e', after ++ [e], by simp, hwhat, ht⟩
    have hhere : Refreshes p e ∨ p.hidden = true → t ≤ e.now + k →
        ∃ before e' after, events ++ [e] = before ++ e' :: after ∧
          (Refreshes (run Page.step p₀ before) e' ∨ (run Page.step p₀ before).hidden = true) ∧
            t ≤ e'.now + k :=
      fun hwhat ht => ⟨events, e, [], rfl, hwhat, ht⟩
    have hk : ∀ {k' : ℕ}, (p.step e).delay = some k' → k' = k := fun h =>
      Option.some.inj (h.symm.trans hdelay)
    rcases move_step p e with ⟨-, hdue', hdelay', -⟩ | ⟨-, hdue', -, -, -⟩ |
      ⟨he, -, hdue', hdelay', -⟩ | ⟨-, hold, hdelay', hdue', hcalls⟩ |
      ⟨-, -, -, -, hdelay', hdue', hcalls⟩ | ⟨-, hhidden, -, -, hdelay', hdue', -⟩
    · exact hearlier (hdue'.symm.trans hdue) (hdelay'.symm.trans hdelay)
    · exact absurd (hdue'.symm.trans hdue) (by simp)
    · obtain rfl := hk hdelay'
      exact hhere (.inl (.inr ⟨_, he⟩)) (Option.some.inj (hdue.symm.trans hdue')).le
    · obtain rfl := hk hdelay'
      have ht := Option.some.inj (hdue.symm.trans hdue')
      cases hset : p.due with
      | none =>
        rw [hset, Option.getD_none] at ht
        exact hhere (.inl (refreshes_of_append hcalls)) ht.le
      | some t' =>
        rw [hset, Option.getD_some] at ht
        exact hearlier (ht ▸ hset) hold
    · obtain rfl := hk hdelay'
      exact hhere (.inl (refreshes_of_append hcalls)) (Option.some.inj (hdue.symm.trans hdue')).le
    · obtain rfl := hk hdelay'
      exact hhere (.inr hhidden) (Option.some.inj (hdue.symm.trans hdue')).le

/-- **A page without its timer** found the document hidden when it looked last. -/
theorem off_run {events : List Event} (hinit : p₀.delay = none)
    (hdelay : (run Page.step p₀ events).delay ≠ none)
    (hdue : (run Page.step p₀ events).due = none) :
    LastWrite (fun e => e.kind.looks)
      (fun before _ => (run Page.step p₀ before).hidden = true) events := by
  induction events using List.reverseRecOn with
  | nil => exact absurd hinit hdelay
  | append_singleton events e ih =>
    rw [run_concat] at hdelay hdue
    rcases move_step (run Page.step p₀ events) e with ⟨hlooks, hdue', hdelay', -⟩ |
      ⟨-, -, -, hnone | hhidden, -⟩ | ⟨-, -, hdue', -, -⟩ | ⟨-, -, -, hdue', -⟩ |
      ⟨-, -, -, -, -, hdue', -⟩ | ⟨-, -, -, -, -, hdue', -⟩
    · rw [hdelay'] at hdelay
      exact (ih hdelay (hdue'.symm.trans hdue)).concat (hlooks hdelay)
    · exact absurd hnone hdelay
    · exact lastWrite_concat hhidden
    · exact absurd (hdue'.symm.trans hdue) (by simp)
    · exact absurd (hdue'.symm.trans hdue) (by simp)
    · exact absurd (hdue'.symm.trans hdue) (by simp)
    · exact absurd (hdue'.symm.trans hdue) (by simp)

/-- The clock is not past the timer's next turn by more than its turns are late. -/
theorem clock_step_le {p : Page} {e : Event} (h : Punctual late p e) {t : ℤ}
    (hdue : (p.step e).due = some t) : (p.step e).clock ≤ t + late := by
  rw [clock_step]
  rcases move_step p e with ⟨-, hdue', -, -⟩ | ⟨-, hdue', -, -, -⟩ | ⟨-, -, hdue', -, -⟩ |
    ⟨-, -, -, hdue', -⟩ | ⟨-, -, -, -, -, hdue', -⟩ | ⟨-, -, -, -, -, hdue', -⟩
  · exact (h.2 t (hdue'.symm.trans hdue)).2
  · exact absurd (hdue'.symm.trans hdue) (by simp)
  · have ht := Option.some.inj (hdue.symm.trans hdue')
    omega
  · have ht := Option.some.inj (hdue.symm.trans hdue')
    cases hset : p.due with
    | none =>
      rw [hset, Option.getD_none] at ht
      omega
    | some t' =>
      rw [hset, Option.getD_some] at ht
      have hold := (h.2 t' hset).2
      omega
  · have ht := Option.some.inj (hdue.symm.trans hdue')
    omega
  · have ht := Option.some.inj (hdue.symm.trans hdue')
    omega

end

/-- **Polling a visible page.**  On a clock that does not run back, with turns of the timer at most
`late` milliseconds late: a page refreshes only while its document is visible, its timer's refreshes
are a period apart or more, and while the timer is on, at most a period and `late` have passed since
a refresh or since the document was hidden.  The timer is off only when the page last found the
document hidden. -/
theorem interval_exact {d late : ℕ} {start : ℤ} {hidden : Bool} {events : List Event}
    (h : AllAllowed Page.step (fun p e => Punctual late p e ∧ Every d e)
      (Page.initial start hidden) events) :
    let after (es : List Event) : Page := run Page.step (Page.initial start hidden) es
    (∀ before e, before ++ [e] <+: events → (after (before ++ [e])).calls ≠ (after before).calls →
      (after before).hidden = false ∧ (after before).delay = some d) ∧
    (timerCalls (after events)).Pairwise (fun c c' => c.at' + (d : ℤ) ≤ c'.at') ∧
    (∀ t, (after events).due = some t → ∃ before e later, events = before ++ e :: later ∧
      (Refreshes (after before) e ∨ (after before).hidden = true) ∧
        (after events).clock ≤ e.now + d + late) ∧
    ((after events).delay = some d → (after events).due = none →
      LastWrite (fun e => e.kind.looks) (fun before _ => (after before).hidden = true) events) := by
  intro after
  have hpaced : ∀ {es : List Event}, es <+: events → Paced d (after es) := by
    intro es hes
    refine run_invariant (P := Paced d) ?_ (fun p e hp he => paced_step hp he.1 he.2) (h.before hes)
    refine ⟨fun _ => rfl, fun k hk => ?_, fun c hc => ?_, fun c hc => ?_, .nil⟩
    · cases hk
    · cases hc
    · cases hc
  refine ⟨fun before e hbefore hcalls => ?_, (hpaced (List.prefix_refl _)).spaced, fun t ht => ?_,
    fun hdelay hdue => off_run rfl (by rw [hdelay]; simp) hdue⟩
  · have hp := hpaced ((List.prefix_append before [e]).trans hbefore)
    change (run Page.step _ (before ++ [e])).calls ≠ _ at hcalls
    rw [run_concat] at hcalls
    rcases move_step (after before) e with ⟨-, -, -, hsame⟩ | ⟨-, -, hsame, -, -⟩ |
      ⟨-, -, -, -, hsame⟩ | ⟨hvisible, hk, -, -, -⟩ | ⟨-, hvisible, hk, -, -, -, -⟩ |
      ⟨-, -, -, -, -, -, hsame⟩
    · exact absurd hsame hcalls
    · exact absurd hsame hcalls
    · exact absurd hsame hcalls
    · exact ⟨hvisible, hp.period _ hk ▸ hk⟩
    · exact ⟨hvisible, hp.period _ hk ▸ hk⟩
    · exact absurd hsame hcalls
  · have hclock : (after events).clock ≤ t + late := by
      cases events using List.reverseRecOn with
      | nil => cases ht
      | append_singleton events e =>
        change (run Page.step _ (events ++ [e])).due = some t at ht
        change (run Page.step _ (events ++ [e])).clock ≤ _
        rw [run_concat] at ht ⊢
        exact clock_step_le (h events e (List.prefix_refl _)).1 ht
    cases hdelay : (after events).delay with
    | none => exact absurd ((hpaced (List.prefix_refl _)).quiet hdelay |>.symm.trans ht) (by simp)
    | some k =>
      obtain ⟨before, e, later, rfl, hwhat, hle⟩ := due_run rfl ht hdelay
      obtain rfl := (hpaced (List.prefix_refl _)).period k hdelay
      exact ⟨before, e, later, rfl, hwhat, by omega⟩

namespace Away

/-- The user is away for a minute; the page polls every 20 seconds. -/
def events : List Event :=
  [⟨0, .effect (some 20000)⟩, ⟨20010, .fire⟩, ⟨30000, .turn true⟩, ⟨30000, .notify⟩,
    ⟨90000, .turn false⟩, ⟨90000, .notify⟩, ⟨110000, .fire⟩]

theorem every_events : ∀ e ∈ events, Every 20000 e := by
  intro e he delayMs k hkind hk
  have hperiods : ∀ e ∈ events, ∀ delayMs, e.kind = .effect delayMs → delayMs = some 20000 := by
    simp [events]
  rw [hperiods e he delayMs hkind] at hk
  exact (Option.some.inj hk).symm

theorem allowed_events :
    AllAllowed Page.step (fun p e => Punctual 50 p e ∧ Every 20000 e) (Page.initial 0 false)
      events := by
  have hpunctual : ∀ {p : Page} {e : Event} {es : List Event}, e ∈ events → Punctual 50 p e →
      AllAllowed Page.step (fun p e => Punctual 50 p e ∧ Every 20000 e) (p.step e) es →
        AllAllowed Page.step (fun p e => Punctual 50 p e ∧ Every 20000 e) p (e :: es) :=
    fun he hp => Overlap.allAllowed_cons ⟨hp, every_events _ he⟩
  refine hpunctual (by simp [events]) ⟨by decide, fun t ht => ?_⟩ ?_
  · cases ht
  refine hpunctual (by simp [events]) ⟨by decide, fun t ht => ?_⟩ ?_
  · obtain rfl := Option.some.inj ht
    decide
  refine hpunctual (by simp [events]) ⟨by decide, fun t ht => ?_⟩ ?_
  · obtain rfl := Option.some.inj ht
    decide
  refine hpunctual (by simp [events]) ⟨by decide, fun t ht => ?_⟩ ?_
  · obtain rfl := Option.some.inj ht
    decide
  refine hpunctual (by simp [events]) ⟨by decide, fun t ht => ?_⟩ ?_
  · cases ht
  refine hpunctual (by simp [events]) ⟨by decide, fun t ht => ?_⟩ ?_
  · cases ht
  refine hpunctual (by simp [events]) ⟨by decide, fun t ht => ?_⟩ Overlap.allAllowed_nil
  obtain rfl := Option.some.inj ht
  decide

end Away

/-- The page refreshes when the user is back, and polls again. -/
theorem interval_exact_away :
    (run Page.step (Page.initial 0 false) Away.events).calls =
        [⟨20010, true⟩, ⟨90000, false⟩, ⟨110000, true⟩] ∧
      (timerCalls (run Page.step (Page.initial 0 false) Away.events)).Pairwise
        fun c c' => c.at' + ((20000 : ℕ) : ℤ) ≤ c'.at' :=
  ⟨by decide, (interval_exact Away.allowed_events).2.1⟩

end BoingObserver.View.Interval
