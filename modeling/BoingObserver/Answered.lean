import BoingObserver.Handler
import Mathlib.Logic.Nonempty

/-!
# Programs and their answers

What a program ends with, given the answers to its questions in the order in which it asks them.
Nothing is said of where the answers come from, so the questions of other programs may stand
between them.

* `gives_bind_iff`: a sequence takes its answers one part after the other.
* `Gives.of_handle`: a program whose questions are renamed.
* `Gives.exists_env`: there is an environment against which the program runs that way.
-/

namespace BoingObserver.Oracle

section

variable {Q Q' : Type} {A : Q → Type} {B : Q' → Type} {α β ε : Type}

/-- The program, given these answers to its questions, ends with `a`. -/
inductive Gives : Prog A α → Trace A → α → Prop
  | ret (a : α) : Gives (.ret a) [] a
  | ask {q : Q} {next : A q → Prog A α} {t : Trace A} {a : α} (x : A q)
      (h : Gives (next x) t a) : Gives (.ask q next) (⟨q, x⟩ :: t) a

variable {p : Prog A α} {t : Trace A} {a : α}

theorem Gives.bind {f : α → Prog A β} {t' : Trace A} {b : β} (h : Gives p t a)
    (h' : Gives (f a) t' b) : Gives (p >>= f) (t ++ t') b := by
  change Gives (p.bind f) (t ++ t') b
  induction h with
  | ret a => exact h'
  | ask x _ ih => exact .ask x (ih h')

/-- **A sequence** takes its answers one part after the other. -/
theorem gives_bind_iff {f : α → Prog A β} {b : β} :
    Gives (p >>= f) t b ↔ ∃ t₁ t₂ a, t = t₁ ++ t₂ ∧ Gives p t₁ a ∧ Gives (f a) t₂ b := by
  constructor
  · intro h
    change Gives (p.bind f) t b at h
    induction p generalizing t with
    | ret a => exact ⟨[], t, a, rfl, .ret a, h⟩
    | ask q next ih =>
      cases h with
      | ask x h =>
        obtain ⟨t₁, t₂, a, rfl, h₁, h₂⟩ := ih x h
        exact ⟨⟨q, x⟩ :: t₁, t₂, a, rfl, .ask x h₁, h₂⟩
  · rintro ⟨t₁, t₂, a, rfl, h₁, h₂⟩
    exact h₁.bind h₂

/-- **Renamed questions.** -/
theorem Gives.of_handle {f : Q → Q'} {p : Prog (fun q => B (f q)) α} {t : Trace B}
    (h : Gives (p.handle fun q => Prog.query (f q)) t a) :
    ∃ t', t = t'.map (Prog.rename f) ∧ Gives p t' a := by
  induction p generalizing t with
  | ret b =>
    cases h
    exact ⟨[], rfl, .ret _⟩
  | ask q next ih =>
    change Gives (Prog.ask (f q) fun x => (next x).handle fun q => Prog.query (f q)) t a at h
    cases h with
    | ask x h =>
      obtain ⟨t', rfl, h'⟩ := ih x h
      exact ⟨⟨q, x⟩ :: t', rfl, Gives.ask (A := fun q => B (f q)) x h'⟩

open Classical in
/-- The environment that gives the answers of a trace in turn. -/
noncomputable def replay (t : Trace A) (env : Env A) : Env A := fun tr q =>
  match t[tr.length]? with
  | some ⟨q', x⟩ => if h : q' = q then h ▸ x else env tr q
  | none => env tr q

theorem replay_append_cons (tr t : Trace A) (env : Env A) (q : Q) (x : A q) :
    replay (tr ++ ⟨q, x⟩ :: t) env tr q = x := by
  rw [replay, List.getElem?_append_right (Nat.le_refl _), Nat.sub_self]
  exact dif_pos rfl

theorem Gives.run_replay (h : Gives p t a) (env : Env A) (tr : Trace A) :
    p.run (replay (tr ++ t) env) tr = (a, tr ++ t) := by
  induction h generalizing tr with
  | ret a => rw [Prog.run, List.append_nil]
  | @ask q next t a x h ih =>
    rw [Prog.run, replay_append_cons]
    have hnext := ih (tr ++ [⟨q, x⟩])
    rwa [List.append_assoc, List.singleton_append] at hnext

/-- **An environment** that gives these answers. -/
theorem Gives.exists_env [Nonempty (Env A)] (h : Gives p t a) : ∃ env, p.run env [] = (a, t) :=
  ⟨_, h.run_replay (Classical.arbitrary _) []⟩

end

end BoingObserver.Oracle
