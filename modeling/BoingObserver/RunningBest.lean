import Mathlib.Order.Lattice
import Mathlib.Data.List.Induction

/-!
# The best of a list, kept while running through it

A loop keeps the best element so far: an element without a score is passed over, and
one with a score replaces the best only when its score is higher.

* `runningBest_eq_none_iff`: there is none when nothing has a score.
* `kept_runningBest`: what is kept is the first element of the highest score.
-/

namespace BoingObserver.RunningBest

section

variable {α κ : Type} [LinearOrder κ] (score : α → Option κ)

def improve (best : Option (α × κ)) (a : α) : Option (α × κ) :=
  match score a, best with
  | none, best => best
  | some s, none => some (a, s)
  | some s, some (b, t) => if t < s then some (a, s) else some (b, t)

def runningBest (l : List α) : Option (α × κ) := l.foldl (improve score) none

/-- An element whose score is above those before it, and not below those after it. -/
def FirstBest (l : List α) (a : α) (s : κ) : Prop :=
  ∃ before after, l = before ++ a :: after ∧ score a = some s ∧
    (∀ b ∈ before, ∀ t, score b = some t → t < s) ∧
    ∀ b ∈ after, ∀ t, score b = some t → t ≤ s

variable {score} {l : List α} {a : α} {s : κ}

theorem runningBest_concat (l : List α) (a : α) :
    runningBest score (l ++ [a]) = improve score (runningBest score l) a :=
  List.foldl_append

theorem FirstBest.score_eq (h : FirstBest score l a s) : score a = some s := by
  obtain ⟨_, _, _, hs, _⟩ := h
  exact hs

theorem FirstBest.mem (h : FirstBest score l a s) : a ∈ l := by
  obtain ⟨before, after, rfl, _⟩ := h
  exact List.mem_append_right before List.mem_cons_self

theorem FirstBest.le (h : FirstBest score l a s) {b : α} (hb : b ∈ l) {t : κ}
    (ht : score b = some t) : t ≤ s := by
  obtain ⟨before, after, rfl, hs, hbefore, hafter⟩ := h
  rcases List.mem_append.mp hb with hb | hb
  · exact le_of_lt (hbefore b hb t ht)
  · rcases List.mem_cons.mp hb with rfl | hb
    · exact le_of_eq (Option.some.inj (ht.symm.trans hs))
    · exact hafter b hb t ht

theorem FirstBest.concat (h : FirstBest score l a s) {b : α}
    (hb : ∀ t, score b = some t → t ≤ s) : FirstBest score (l ++ [b]) a s := by
  obtain ⟨before, after, rfl, hs, hbefore, hafter⟩ := h
  refine ⟨before, after ++ [b], ?_, hs, hbefore, ?_⟩
  · rw [List.append_assoc, List.cons_append]
  · intro c hc
    rcases List.mem_append.mp hc with hc | hc
    · exact hafter c hc
    · rw [List.mem_singleton.mp hc]
      exact hb

/-- What the loop keeps: the first of the highest score, or nothing when nothing has a score. -/
def Kept (score : α → Option κ) (l : List α) : Option (α × κ) → Prop
  | none => ∀ a ∈ l, score a = none
  | some (a, s) => FirstBest score l a s

/-- **One round keeps the first of the highest score.** -/
theorem kept_improve {best : Option (α × κ)} (h : Kept score l best) (a : α) :
    Kept score (l ++ [a]) (improve score best a) := by
  cases best with
  | none =>
    have hnone : ∀ b ∈ l, score b = none := h
    cases ha : score a with
    | none =>
      unfold improve
      rw [ha]
      intro b hb
      rcases List.mem_append.mp hb with hb | hb
      · exact hnone b hb
      · rw [List.mem_singleton.mp hb]
        exact ha
    | some s =>
      unfold improve
      rw [ha]
      refine ⟨l, [], rfl, ha, ?_, by rintro b ⟨⟩⟩
      intro b hb t ht
      rw [hnone b hb] at ht
      cases ht
  | some best =>
    obtain ⟨b, t⟩ := best
    have hbest : FirstBest score l b t := h
    cases ha : score a with
    | none =>
      unfold improve
      rw [ha]
      refine hbest.concat fun u hu => ?_
      rw [ha] at hu
      cases hu
    | some s =>
      unfold improve
      rw [ha]
      by_cases hlt : t < s
      · change Kept score (l ++ [a]) (if t < s then some (a, s) else some (b, t))
        rw [if_pos hlt]
        exact ⟨l, [], rfl, ha, fun c hc u hu => lt_of_le_of_lt (hbest.le hc hu) hlt,
          by rintro b ⟨⟩⟩
      · change Kept score (l ++ [a]) (if t < s then some (a, s) else some (b, t))
        rw [if_neg hlt]
        refine hbest.concat fun u hu => ?_
        rw [ha] at hu
        rw [← Option.some.inj hu]
        exact not_lt.mp hlt

/-- **What is kept in the end is the first of the highest score.** -/
theorem kept_runningBest (score : α → Option κ) (l : List α) :
    Kept score l (runningBest score l) := by
  induction l using List.reverseRecOn with
  | nil =>
    intro a ha
    cases ha
  | append_singleton l a ih =>
    rw [runningBest_concat]
    exact kept_improve ih a

theorem runningBest_eq_none_iff : runningBest score l = none ↔ ∀ a ∈ l, score a = none := by
  have hkept := kept_runningBest score l
  constructor
  · intro h
    rwa [h] at hkept
  · intro h
    cases hbest : runningBest score l with
    | none => rfl
    | some best =>
      rw [hbest] at hkept
      have hs := FirstBest.score_eq hkept
      rw [h _ (FirstBest.mem hkept)] at hs
      cases hs

theorem runningBest_congr {score' : α → Option κ} (h : ∀ a ∈ l, score a = score' a) :
    runningBest score l = runningBest score' l := by
  induction l using List.reverseRecOn with
  | nil => rfl
  | append_singleton l a ih =>
    have hrest := ih fun b hb => h b (List.mem_append_left _ hb)
    have ha := h a (List.mem_append_right _ List.mem_cons_self)
    rw [runningBest_concat, runningBest_concat, hrest]
    unfold improve
    rw [ha]

theorem firstBest_of_eq_some (h : runningBest score l = some (a, s)) : FirstBest score l a s := by
  have hkept := kept_runningBest score l
  rwa [h] at hkept

end

end BoingObserver.RunningBest
