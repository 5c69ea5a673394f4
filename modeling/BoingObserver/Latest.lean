import BoingObserver.Overlap

/-!
# What was written last

A run of events, some of which write a register.

* `lastWrite_of_read`: what is read was written by an event, and no event that writes came after.
* `LastWrite.holds`: what the last write brings about, and other events leave, holds.
* `read_of_lastWrite`: what was written last is read.
-/

namespace BoingObserver.Latest

open Overlap (run run_concat)

section

variable {ι : Type} {writes : ι → Bool} {P : List ι → ι → Prop} {events : List ι} {e : ι}

/-- Of the events that write, the last one is as `P` says, given those before it. -/
def LastWrite (writes : ι → Bool) (P : List ι → ι → Prop) (events : List ι) : Prop :=
  ∃ before e after, events = before ++ e :: after ∧ P before e ∧ ∀ e' ∈ after, writes e' = false

theorem LastWrite.concat (h : LastWrite writes P events) (he : writes e = false) :
    LastWrite writes P (events ++ [e]) := by
  obtain ⟨before, e₀, after, rfl, hP, hafter⟩ := h
  refine ⟨before, e₀, after ++ [e], by simp, hP, fun e' he' => ?_⟩
  rcases List.mem_append.mp he' with he' | he'
  · exact hafter e' he'
  · rw [List.mem_singleton.mp he']
    exact he

theorem lastWrite_concat (h : P events e) : LastWrite writes P (events ++ [e]) :=
  ⟨events, e, [], rfl, h, fun _ he' => absurd he' List.not_mem_nil⟩

/-- What holds at every event of the run holds at the last write. -/
theorem LastWrite.of_prefix {Q : List ι → ι → Prop} (h : LastWrite writes P events)
    (hQ : ∀ before e, before ++ [e] <+: events → P before e → Q before e) :
    LastWrite writes Q events := by
  obtain ⟨before, e, after, rfl, hP, hafter⟩ := h
  refine ⟨before, e, after, rfl, hQ before e ⟨after, ?_⟩ hP, hafter⟩
  rw [List.append_assoc, List.singleton_append]

end

section

variable {σ ι α : Type} {step : σ → ι → σ} {s : σ} {read : σ → Option α} {writes : ι → Bool}
  {P : List ι → ι → Prop} {a : α} {events : List ι}

/-- **What is read was written**, and nothing was written after it. -/
theorem lastWrite_of_read (hinit : read s = none)
    (hstep : ∀ events e, read (step (run step s events) e) = some a →
      P events e ∨ (read (run step s events) = some a ∧ writes e = false))
    (h : read (run step s events) = some a) : LastWrite writes P events := by
  induction events using List.reverseRecOn with
  | nil => cases hinit.symm.trans h
  | append_singleton events e ih =>
    rw [run_concat] at h
    rcases hstep events e h with hP | ⟨hkept, he⟩
    · exact lastWrite_concat hP
    · exact (ih hkept).concat he

/-- What the last write brings about, and other events leave, holds. -/
theorem LastWrite.holds {Q : σ → Prop} (h : LastWrite writes P events)
    (hwrite : ∀ events e, P events e → Q (step (run step s events) e))
    (hkeep : ∀ events e, writes e = false → Q (run step s events) →
      Q (step (run step s events) e)) : Q (run step s events) := by
  obtain ⟨before, e, after, rfl, hP, hafter⟩ := h
  induction after using List.reverseRecOn with
  | nil =>
    rw [run_concat]
    exact hwrite before e hP
  | append_singleton after e' ih =>
    have hrun : before ++ e :: (after ++ [e']) = (before ++ e :: after) ++ [e'] := by simp
    rw [hrun, run_concat]
    refine hkeep _ e' (hafter e' (by simp)) ?_
    exact ih fun e'' he'' => hafter e'' (List.mem_append_left _ he'')

/-- **What was written last is read.** -/
theorem read_of_lastWrite
    (hwrite : ∀ events e, P events e → read (step (run step s events) e) = some a)
    (hkeep : ∀ events e, writes e = false →
      read (step (run step s events) e) = read (run step s events))
    (h : LastWrite writes P events) : read (run step s events) = some a :=
  h.holds (Q := fun s => read s = some a) hwrite fun events e he hread =>
    (hkeep events e he).trans hread

end

end BoingObserver.Latest
