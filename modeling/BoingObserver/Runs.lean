import Mathlib.Data.List.Infix

/-!
# Runs joined by a separator

A list made of runs of some items, with one separator between two runs.

* `joined_iff_runs`: such a list is the runs, intercalated with the separator.
* `joined_iff`: such a list has a separator neither at an edge nor twice in a row.
-/

namespace BoingObserver.Runs

variable {α : Type} {p : α → Prop} {sep : α} {l : List α}

/-- Runs of items with `p`, joined by single separators. -/
inductive Joined (p : α → Prop) (sep : α) : List α → Prop
  | single {a : α} (ha : p a) : Joined p sep [a]
  | cons {a : α} {l : List α} (ha : p a) (h : Joined p sep l) : Joined p sep (a :: l)
  | sep {a : α} {l : List α} (ha : p a) (h : Joined p sep l) : Joined p sep (a :: sep :: l)

theorem Joined.exists_cons (h : Joined p sep l) : ∃ a t, l = a :: t ∧ p a := by
  cases h with
  | single ha => exact ⟨_, _, rfl, ha⟩
  | cons ha => exact ⟨_, _, rfl, ha⟩
  | sep ha => exact ⟨_, _, rfl, ha⟩

theorem Joined.ne_nil (h : Joined p sep l) : l ≠ [] := by
  obtain ⟨a, t, rfl, -⟩ := h.exists_cons
  exact List.cons_ne_nil _ _

/-! ## Runs -/

theorem joined_run : ∀ {r : List α}, r ≠ [] → (∀ a ∈ r, p a) → Joined p sep r
  | [], hne, _ => absurd rfl hne
  | [a], _, h => .single (h a List.mem_cons_self)
  | a :: b :: r, _, h =>
    .cons (h a List.mem_cons_self)
      (joined_run (List.cons_ne_nil b r) fun c hc => h c (List.mem_cons_of_mem a hc))

theorem Joined.run (h : Joined p sep l) : ∀ {r : List α}, r ≠ [] → (∀ a ∈ r, p a) →
    Joined p sep (r ++ sep :: l)
  | [], hne, _ => absurd rfl hne
  | [a], _, hr => .sep (hr a List.mem_cons_self) h
  | a :: b :: r, _, hr =>
    .cons (hr a List.mem_cons_self)
      (h.run (List.cons_ne_nil b r) fun c hc => hr c (List.mem_cons_of_mem a hc))

def AreRuns (p : α → Prop) (runs : List (List α)) : Prop :=
  runs ≠ [] ∧ ∀ r ∈ runs, r ≠ [] ∧ ∀ a ∈ r, p a

theorem AreRuns.joined {runs : List (List α)} (h : AreRuns p runs) :
    Joined p sep ([sep].intercalate runs) := by
  obtain ⟨hne, hruns⟩ := h
  induction runs with
  | nil => exact absurd rfl hne
  | cons r runs ih =>
    obtain ⟨⟨hr, hp⟩, hruns⟩ := List.forall_mem_cons.mp hruns
    cases runs with
    | nil =>
      rw [List.intercalate_singleton]
      exact joined_run hr hp
    | cons s runs =>
      rw [List.intercalate_cons_cons, List.append_assoc]
      exact (ih (List.cons_ne_nil s runs) hruns).run hr hp

/-- **Joined runs** are the runs, intercalated with the separator. -/
theorem joined_iff_runs :
    Joined p sep l ↔ ∃ runs, AreRuns p runs ∧ l = [sep].intercalate runs := by
  constructor
  · intro h
    induction h with
    | @single a ha =>
      refine ⟨[[a]], ⟨List.cons_ne_nil _ _, ?_⟩, rfl⟩
      simpa using ha
    | @cons a l ha h ih =>
      obtain ⟨runs, ⟨hne, hruns⟩, rfl⟩ := ih
      obtain ⟨r, runs, rfl⟩ := List.exists_cons_of_ne_nil hne
      obtain ⟨⟨-, hp⟩, hruns⟩ := List.forall_mem_cons.mp hruns
      refine ⟨(a :: r) :: runs, ⟨List.cons_ne_nil _ _, ?_⟩, List.intercalate_cons_cons_left.symm⟩
      exact List.forall_mem_cons.mpr
        ⟨⟨List.cons_ne_nil _ _, List.forall_mem_cons.mpr ⟨ha, hp⟩⟩, hruns⟩
    | @sep a l ha h ih =>
      obtain ⟨runs, ⟨hne, hruns⟩, rfl⟩ := ih
      refine ⟨[a] :: runs, ⟨List.cons_ne_nil _ _, ?_⟩, ?_⟩
      · refine List.forall_mem_cons.mpr ⟨⟨List.cons_ne_nil _ _, ?_⟩, hruns⟩
        simpa using ha
      · rw [List.intercalate_cons_of_ne_nil hne]
        rfl
  · rintro ⟨runs, hruns, rfl⟩
    exact hruns.joined

/-! ## Separators -/

/-- No separator at an edge, and no two in a row. -/
structure Separated (p : α → Prop) (sep : α) (l : List α) : Prop where
  mem : ∀ a ∈ l, p a ∨ a = sep
  head : l.head? ≠ some sep
  last : l.getLast? ≠ some sep
  single : ¬ [sep, sep] <:+: l

theorem Joined.separated (hsep : ¬ p sep) (h : Joined p sep l) : Separated p sep l := by
  have hne {a : α} (ha : p a) : a ≠ sep := fun he => hsep (he ▸ ha)
  induction h with
  | single ha =>
    refine ⟨?_, ?_, ?_, ?_⟩
    · simpa using Or.inl ha
    · simpa using hne ha
    · simpa using hne ha
    · intro hin
      exact absurd hin.length_le (by simp)
  | @cons a l ha h ih =>
    obtain ⟨b, t, rfl, -⟩ := h.exists_cons
    refine ⟨List.forall_mem_cons.mpr ⟨Or.inl ha, ih.mem⟩, ?_, ?_, ?_⟩
    · simpa using hne ha
    · rw [List.getLast?_cons_cons]
      exact ih.last
    · intro hin
      rcases List.infix_cons_iff.mp hin with hin | hin
      · exact hne ha (List.cons_prefix_cons.mp hin).1.symm
      · exact ih.single hin
  | @sep a l ha h ih =>
    obtain ⟨b, t, rfl, hb⟩ := h.exists_cons
    refine ⟨List.forall_mem_cons.mpr ⟨Or.inl ha, List.forall_mem_cons.mpr ⟨Or.inr rfl, ih.mem⟩⟩,
      ?_, ?_, ?_⟩
    · simpa using hne ha
    · rw [List.getLast?_cons_cons, List.getLast?_cons_cons]
      exact ih.last
    · intro hin
      rcases List.infix_cons_iff.mp hin with hin | hin
      · exact hne ha (List.cons_prefix_cons.mp hin).1.symm
      rcases List.infix_cons_iff.mp hin with hin | hin
      · exact hne hb (List.cons_prefix_cons.mp (List.cons_prefix_cons.mp hin).2).1.symm
      · exact ih.single hin

theorem Separated.joined : ∀ {l : List α}, l ≠ [] → Separated p sep l → Joined p sep l
  | [], hne, _ => absurd rfl hne
  | [a], _, h => by
    have ha : a ≠ sep := fun he => h.head (congrArg some he)
    exact .single ((h.mem a List.mem_cons_self).resolve_right ha)
  | a :: b :: l, _, h => by
    have hne : a ≠ sep := fun he => h.head (congrArg some he)
    have ha : p a := (h.mem a List.mem_cons_self).resolve_right hne
    have hlast : (b :: l).getLast? ≠ some sep := by
      have hlast := h.last
      rwa [List.getLast?_cons_cons] at hlast
    have hmem : ∀ c ∈ b :: l, p c ∨ c = sep := fun c hc => h.mem c (List.mem_cons_of_mem a hc)
    have hsingle : ¬ [sep, sep] <:+: b :: l := fun hin => h.single (List.infix_cons hin)
    by_cases hb : b = sep
    · obtain rfl := hb.symm
      cases l with
      | nil => exact absurd rfl hlast
      | cons c l =>
        -- The separator is followed by a run.
        have hc : c ≠ sep := by
          rintro rfl
          exact hsingle ⟨[], l, rfl⟩
        refine .sep ha (Separated.joined (List.cons_ne_nil c l) ⟨?_, ?_, ?_, ?_⟩)
        · exact fun d hd => hmem d (List.mem_cons_of_mem sep hd)
        · exact fun he => hc (Option.some.inj he)
        · rwa [List.getLast?_cons_cons] at hlast
        · exact fun hin => hsingle (List.infix_cons hin)
    · exact .cons ha (Separated.joined (List.cons_ne_nil b l)
        ⟨hmem, fun he => hb (Option.some.inj he), hlast, hsingle⟩)

/-- **Joined runs** have a separator neither at an edge nor twice in a row. -/
theorem joined_iff (hsep : ¬ p sep) : Joined p sep l ↔ l ≠ [] ∧ Separated p sep l :=
  ⟨fun h => ⟨h.ne_nil, h.separated hsep⟩, fun h => h.2.joined h.1⟩

end BoingObserver.Runs
