import BoingObserver.Js.Text
import BoingObserver.PromiseCache

/-!
# The cache of name lookups

`cached` of `boing-names.ts`, under lookups, settlements and time in any order.  A load
that fails deletes whatever is stored under its key, where `cachedRpc` deletes its own
entry only.

* `deduplicates_iff`: lookups are de-duplicated in a run exactly when no load fails
  while another's entry is stored under its key.
* `not_deduplicates_lateFailure`: a run where one does.
-/

namespace BoingObserver.Cache

open Js PromiseCache
open Overlap (run run_append run_invariant AllAllowed)

/-- `TTL_MS` -/
def nameTtlMs : ℤ := 30000

structure NameEntry where
  /-- `at`: when the entry was set. -/
  setAt : ℤ
  p : ℕ
  deriving DecidableEq

/-- A lookup is given the time that starting its load takes.  A load that fails with an unknown
method resolves to a fallback, but deletes the entry like any other. -/
def nameCache : PromiseCache.Cache Text NameEntry ℕ Empty where
  promise := NameEntry.p
  fresh now hit := decide (now - hit.setAt < nameTtlMs)
  prepare _ _ m := m
  clock now elapsed := now + elapsed
  entry now elapsed id := ⟨now + elapsed, id⟩
  drops _ _ := true
  op b _ := b.elim
  promise_entry _ _ _ := rfl
  get_of_get_prepare _ _ _ _ _ h := h
  get_of_get_op b := b.elim

abbrev NameState : Type := State Text NameEntry

abbrev NameEvent : Type := Event Text ℕ Empty

def cached (s : NameState) (key : Text) (elapsed : ℕ) : ℕ × NameState :=
  call nameCache s key elapsed

def nameRun (now : ℤ) (events : List NameEvent) : NameState :=
  run (step nameCache) (State.initial now) events

/-! ## De-duplication -/

/-- An event that leaves every entry but that of a failing load. -/
def SparesOthers (s : NameState) (ev : NameEvent) : Prop :=
  ∀ id key, Fails s ev id key → ∀ e, s.entries.get key = some e → e.p ≠ id →
    (step nameCache s ev).entries.get key = some e

/-- An event while the entry `e` of a key is younger than its time to live and its load has not
failed. -/
def Young (key : Text) (e : NameEntry) (s : NameState) (ev : NameEvent) : Prop :=
  (∀ k, ¬ Fails s ev e.p k) ∧ ∀ elapsed, ev = .call key elapsed → s.now - e.setAt < nameTtlMs

/-- A failure deletes no entry of another load; and from when an entry was stored, as long as it is
young, lookups of its key start no load. -/
structure Deduplicates (now : ℤ) (events : List NameEvent) : Prop where
  spares : AllAllowed (step nameCache) SparesOthers (State.initial now) events
  shares : ∀ earlier later key elapsed, earlier ++ (later ++ [.call key elapsed]) <+: events →
    ∀ e, (nameRun now earlier).entries.get key = some e →
      AllAllowed (step nameCache) (Young key e) (nameRun now earlier)
        (later ++ [.call key elapsed]) →
      cached (nameRun now (earlier ++ later)) key elapsed = (e.p, nameRun now (earlier ++ later))

/-- A load fails only while its own entry, or none, is stored under its key. -/
def OwnFailure (s : NameState) (ev : NameEvent) : Prop :=
  ∀ id key, Fails s ev id key → ∀ e, s.entries.get key = some e → e.p = id

/-- After a failure nothing is stored under the key of the load. -/
theorem get_step_of_fails {s : NameState} {ev : NameEvent} {id : ℕ} {key : Text}
    (h : Fails s ev id key) : (step nameCache s ev).entries.get key = none := by
  obtain ⟨rfl, hl⟩ := h
  rw [step, settle, hl]
  change (rejectEntry nameCache s.entries key id).get key = none
  cases he : s.entries.get key with
  | none =>
    rw [rejectEntry, he]
    exact he
  | some e => exact get_rejectEntry_self he

theorem kept_of_young {key : Text} {e : NameEntry} {s : NameState} {ev : NameEvent}
    (he : s.entries.get key = some e) (h : Young key e s ev) : Kept nameCache key e s ev := by
  refine ⟨h.1, ?_⟩
  cases ev with
  | call k elapsed =>
    change if k = key then _ else _
    by_cases hk : k = key
    · subst hk
      rw [if_pos rfl]
      exact decide_eq_true (h.2 elapsed rfl)
    · rw [if_neg hk]
      rcases call_cases nameCache s k elapsed with ⟨_, -, -, hcall⟩ | ⟨-, hcall⟩
      · rwa [hcall]
      · rw [hcall]
        exact (Map.get_set_of_ne _ _ (Ne.symm hk)).trans he
  | settle id ok => trivial
  | tick now => trivial
  | op b => exact b.elim

/-- **Lookups are de-duplicated exactly in the runs where no load fails while another's entry is
stored under its key.** -/
theorem deduplicates_iff (now : ℤ) (events : List NameEvent) :
    Deduplicates now events ↔
      AllAllowed (step nameCache) OwnFailure (State.initial now) events := by
  constructor
  · intro h earlier ev hp id key hfails e he
    by_contra hne
    have hstays := h.spares earlier ev hp id key hfails e he hne
    rw [get_step_of_fails hfails] at hstays
    cases hstays
  · intro h
    refine ⟨fun earlier ev hp id key hfails e he hne =>
      absurd (h earlier ev hp id key hfails e he) hne, ?_⟩
    intro earlier later key elapsed hp e he hyoung
    have hlast := hyoung later (.call key elapsed) (List.prefix_refl _)
    have hrun : nameRun now (earlier ++ later) = run (step nameCache) (nameRun now earlier) later :=
      run_append _ _ _ _
    have hown : AllAllowed (step nameCache) OwnFailure (nameRun now earlier) later :=
      (h.before hp).of_append.before (List.prefix_append later _)
    -- The entry stays: no lookup of its key finds it old, and only own failures delete it.
    have hstays : (run (step nameCache) (nameRun now earlier) later).entries.get key = some e := by
      have hboth : AllAllowed (step nameCache) (fun s ev => Young key e s ev ∧ OwnFailure s ev)
          (nameRun now earlier) later :=
        fun before ev hb => ⟨hyoung before ev (hb.trans (List.prefix_append later _)),
          hown before ev hb⟩
      refine run_invariant (P := fun s => s.entries.get key = some e) he ?_ hboth
      intro s ev hs hev
      exact get_step_of_kept hs (kept_of_young hs hev.1)
        fun id k hfails e' he' _ => hev.2 id k hfails e' he'
    rw [hrun]
    exact call_of_fresh hstays (decide_eq_true (hlast.2 elapsed rfl)) elapsed

/-- **A late failure**: the first load of a name outlives its entry, a second load replaces it, and
then the first one fails.  The next lookup starts a third load, with the second one in flight and
its entry new. -/
theorem not_deduplicates_lateFailure :
    let events : List NameEvent :=
      [.call "k" 0, .tick 30000, .call "k" 0, .settle 0 false, .call "k" 0]
    ¬ Deduplicates 0 events ∧ (nameRun 0 events).loads.length = 3 := by
  intro events
  refine ⟨?_, rfl⟩
  intro h
  have hstays := h.spares [.call "k" 0, .tick 30000, .call "k" 0] (.settle 0 false) ⟨[.call "k" 0], rfl⟩
    0 "k" ⟨rfl, rfl⟩ ⟨30000, 1⟩ rfl (by decide)
  exact absurd hstays (by decide)

end BoingObserver.Cache
