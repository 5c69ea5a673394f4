/-!
# Programs that ask an environment

A program asks questions and ends with a result.  An environment answers each
question, knowing everything that was asked and answered before, so a property of
all runs against all environments holds whatever is on the other side: a server
that changes its mind, fails, or lies.

* `run_bind`: a run of two programs in sequence.
* `prefix_run`: a run only adds to the trace.
* `run_frame`: a function of the trace that ignores the questions a program may
  ask is unchanged by its runs.
* `Async`: programs that may throw; `exec_bind_eq_ok` takes a run that returns apart.
* `eval`: what a program gives when each question has one answer, whenever it is asked;
  `exec_fixed` connects it to the runs, and `eval_bind`, `eval_foldlM` compute it.
-/

namespace BoingObserver.Oracle

/-- A program over questions `Q` with answers `A`. -/
inductive Prog {Q : Type} (A : Q → Type) (α : Type) : Type
  | ret (a : α)
  | ask (q : Q) (next : A q → Prog A α)

/-- The questions of a run so far, with their answers, oldest first. -/
abbrev Trace {Q : Type} (A : Q → Type) : Type := List (Σ q, A q)

/-- An environment: the answer to a question after a trace. -/
abbrev Env {Q : Type} (A : Q → Type) : Type := Trace A → (q : Q) → A q

section

variable {Q : Type} {A : Q → Type} {α β γ : Type}

namespace Prog

def bind : Prog A α → (α → Prog A β) → Prog A β
  | .ret a, f => f a
  | .ask q next, f => .ask q fun a => (next a).bind f

instance : Monad (Prog A) where
  pure := Prog.ret
  bind := Prog.bind

def query (q : Q) : Prog A (A q) := .ask q .ret

theorem bind_ret (p : Prog A α) : p.bind .ret = p := by
  induction p with
  | ret a => rfl
  | ask q next ih =>
    rw [Prog.bind]
    exact congrArg _ (funext ih)

theorem bind_assoc (p : Prog A α) (f : α → Prog A β) (g : β → Prog A γ) :
    (p.bind f).bind g = p.bind fun a => (f a).bind g := by
  induction p with
  | ret a => rfl
  | ask q next ih =>
    simp only [Prog.bind]
    exact congrArg _ (funext ih)

instance : LawfulMonad (Prog A) :=
  LawfulMonad.mk' _ (fun p => bind_ret p) (fun _ _ => rfl) (fun p f g => bind_assoc p f g)

def run (env : Env A) : Prog A α → Trace A → α × Trace A
  | .ret a, tr => (a, tr)
  | .ask q next, tr => (next (env tr q)).run env (tr ++ [⟨q, env tr q⟩])

variable {env : Env A}

@[simp] theorem run_pure (a : α) (tr : Trace A) : (Pure.pure a : Prog A α).run env tr = (a, tr) :=
  rfl

/-- **A run of two programs in sequence.** -/
@[simp] theorem run_bind (p : Prog A α) (f : α → Prog A β) (tr : Trace A) :
    (p >>= f).run env tr = (f (p.run env tr).1).run env (p.run env tr).2 := by
  change (p.bind f).run env tr = _
  induction p generalizing tr with
  | ret a => rfl
  | ask q next ih => exact ih (env tr q) _

/-- **A run only adds to the trace.** -/
theorem prefix_run (p : Prog A α) (tr : Trace A) : tr <+: (p.run env tr).2 := by
  induction p generalizing tr with
  | ret a => exact List.prefix_refl tr
  | ask q next ih => exact (List.prefix_append tr _).trans (ih _ _)

/-! ## Programs that leave questions alone -/

/-- Every question the program may ask satisfies `S`. -/
inductive Asks (S : Q → Prop) : Prog A α → Prop
  | ret (a : α) : Asks S (.ret a)
  | ask {q : Q} {next : A q → Prog A α} (hq : S q) (hn : ∀ a, Asks S (next a)) :
      Asks S (.ask q next)

theorem asks_pure {S : Q → Prop} (a : α) : Asks S (Pure.pure a : Prog A α) := .ret a

theorem asks_query {S : Q → Prop} {q : Q} (h : S q) : Asks S (query q : Prog A (A q)) :=
  .ask h fun a => .ret a

theorem asks_bind {S : Q → Prop} {p : Prog A α} {f : α → Prog A β} (hp : Asks S p)
    (hf : ∀ a, Asks S (f a)) : Asks S (p >>= f) := by
  change Asks S (p.bind f)
  induction hp with
  | ret a => exact hf a
  | ask hq _ ih => exact .ask hq ih

/-- **A function of the trace that skips the questions asked is unchanged by a run.** -/
theorem run_frame {S : Q → Prop} {p : Prog A α} (h : Asks S p) {obs : Trace A → γ}
    (hobs : ∀ tr q a, S q → obs (tr ++ [⟨q, a⟩]) = obs tr) (tr : Trace A) :
    obs (p.run env tr).2 = obs tr := by
  induction h generalizing tr with
  | ret a => rfl
  | ask hq _ ih => exact (ih _ _).trans (hobs tr _ _ hq)

/-! ## Fixed answers -/

/-- The result when each question has one answer, whenever it is asked. -/
def eval (answer : (q : Q) → A q) : Prog A α → α
  | .ret a => a
  | .ask q next => (next (answer q)).eval answer

theorem run_fixed (answer : (q : Q) → A q) (p : Prog A α) (tr : Trace A) :
    (p.run (fun _ q => answer q) tr).1 = p.eval answer := by
  induction p generalizing tr with
  | ret a => rfl
  | ask q next ih => exact ih (answer q) _

theorem eval_bind (answer : (q : Q) → A q) (p : Prog A α) (f : α → Prog A β) :
    (p >>= f).eval answer = (f (p.eval answer)).eval answer := by
  change (p.bind f).eval answer = _
  induction p with
  | ret a => rfl
  | ask q next ih => exact ih (answer q)

end Prog

/-! ## Programs that may throw -/

/-- A program that ends with a result or throws. -/
abbrev Async {Q : Type} (A : Q → Type) (ε α : Type) : Type := ExceptT ε (Prog A) α

namespace Async

variable {ε : Type}

def ofExcept (r : Except ε α) : Async A ε α := ExceptT.mk (Pure.pure r)

/-- `try { … } catch`: what the program returned or threw. -/
def attempt (p : Async A ε α) : Async A ε (Except ε α) := ExceptT.lift p.run

/-- All programs are started; the result is all results, or the first throw in order. -/
def all (ps : List (Async A ε α)) : Async A ε (List α) := do
  let rs ← ps.mapM attempt
  ofExcept (rs.mapM id)

def exec (env : Env A) (p : Async A ε α) (tr : Trace A) : Except ε α × Trace A :=
  p.run.run env tr

variable {env : Env A} {tr tr' : Trace A}

@[simp] theorem exec_attempt (p : Async A ε α) :
    exec env (attempt p) tr = (.ok (exec env p tr).1, (exec env p tr).2) := by
  change ((ExceptT.lift p.run : ExceptT ε (Prog A) _).run).run env tr = _
  rw [ExceptT.run_lift, map_eq_pure_bind, Prog.run_bind]
  rfl

theorem exec_bind (p : Async A ε α) (f : α → Async A ε β) :
    exec env (p >>= f) tr =
      match exec env p tr with
      | (.ok a, tr') => exec env (f a) tr'
      | (.error e, tr') => (.error e, tr') := by
  change ((p >>= f).run).run env tr = _
  rw [ExceptT.run_bind, Prog.run_bind]
  change _ = match p.run.run env tr with
    | (.ok a, tr') => exec env (f a) tr'
    | (.error e, tr') => (.error e, tr')
  rcases p.run.run env tr with ⟨_ | a, tr'⟩
  · rfl
  · rfl

/-- **A sequence that returns**: its first part did. -/
theorem exec_bind_eq_ok {p : Async A ε α} {f : α → Async A ε β} {b : β}
    (h : exec env (p >>= f) tr = (.ok b, tr')) :
    ∃ a tr₁, exec env p tr = (.ok a, tr₁) ∧ exec env (f a) tr₁ = (.ok b, tr') := by
  rw [exec_bind] at h
  rcases hp : exec env p tr with ⟨e | a, tr₁⟩
  · rw [hp] at h
    cases h
  · rw [hp] at h
    exact ⟨a, tr₁, rfl, h⟩

theorem prefix_of_exec {p : Async A ε α} {r : Except ε α} (h : exec env p tr = (r, tr')) :
    tr <+: tr' := by
  have hp : tr <+: (p.run.run env tr).2 := Prog.prefix_run p.run tr
  rwa [show (p.run.run env tr).2 = tr' from congrArg Prod.snd h] at hp

/-! ## Programs that return -/

/-- The program returns `a`, whatever was asked before. -/
def Returns (env : Env A) (p : Async A ε α) (a : α) : Prop := ∀ tr, (exec env p tr).1 = .ok a

theorem Returns.exec_eq {p : Async A ε α} {a : α} (h : Returns env p a) (tr : Trace A) :
    exec env p tr = (.ok a, (exec env p tr).2) :=
  Prod.ext (h tr) rfl

theorem returns_pure (a : α) : Returns env (pure a : Async A ε α) a := fun _ => rfl

theorem Returns.bind {p : Async A ε α} {f : α → Async A ε β} {a : α} {b : β}
    (hp : Returns env p a) (hf : Returns env (f a) b) : Returns env (p >>= f) b := by
  intro tr
  rw [exec_bind, hp.exec_eq tr]
  exact hf _

theorem Returns.attempt {p : Async A ε α} {a : α} (h : Returns env p a) :
    Returns env (Async.attempt p) (.ok a) := by
  intro tr
  rw [exec_attempt, h tr]

theorem returns_mapM {f : γ → Async A ε α} {g : γ → α} {xs : List γ}
    (h : ∀ x ∈ xs, Returns env (f x) (g x)) : Returns env (xs.mapM f) (xs.map g) := by
  induction xs with
  | nil => exact returns_pure []
  | cons x xs ih =>
    obtain ⟨hx, hxs⟩ := List.forall_mem_cons.mp h
    rw [List.mapM_cons]
    exact hx.bind ((ih hxs).bind (returns_pure _))

/-- **Programs that all return** are awaited together. -/
theorem returns_all {f : γ → Async A ε α} {g : γ → α} {xs : List γ}
    (h : ∀ x ∈ xs, Returns env (f x) (g x)) : Returns env (all (xs.map f)) (xs.map g) := by
  have hmap : Returns env ((xs.map f).mapM Async.attempt)
      (xs.map fun x => (Except.ok (g x) : Except ε α)) := by
    rw [List.mapM_map]
    exact returns_mapM fun x hx => (h x hx).attempt
  have hok : (xs.map fun x => (Except.ok (g x) : Except ε α)).mapM id = .ok (xs.map g) := by
    clear h hmap
    induction xs with
    | nil => rfl
    | cons x xs ih =>
      rw [List.map_cons, List.mapM_cons, ih]
      rfl
  refine hmap.bind ?_
  intro tr
  rw [hok]
  rfl

/-! ## Programs against fixed answers -/

section

variable {answer : (q : Q) → A q}

def eval (answer : (q : Q) → A q) (p : Async A ε α) : Except ε α := p.run.eval answer

/-- **A run against fixed answers** ends the same way at any time. -/
theorem exec_fixed (p : Async A ε α) (tr : Trace A) :
    (exec (fun _ q => answer q) p tr).1 = eval answer p :=
  Prog.run_fixed answer p.run tr

@[simp] theorem eval_pure (a : α) : eval answer (pure a : Async A ε α) = .ok a := rfl

@[simp] theorem eval_ofExcept (r : Except ε α) : eval answer (ofExcept r) = r := rfl

@[simp] theorem eval_bind (p : Async A ε α) (f : α → Async A ε β) :
    eval answer (p >>= f) = eval answer p >>= fun a => eval answer (f a) := by
  change ((p >>= f).run).eval answer = _
  rw [ExceptT.run_bind, Prog.eval_bind, eval]
  cases p.run.eval answer with
  | error e => rfl
  | ok a => rfl

@[simp] theorem eval_attempt (p : Async A ε α) : eval answer (attempt p) = .ok (eval answer p) := by
  change ((ExceptT.lift p.run : ExceptT ε (Prog A) _).run).eval answer = _
  rw [ExceptT.run_lift, map_eq_pure_bind, Prog.eval_bind]
  rfl

theorem eval_foldlM (f : β → γ → Async A ε β) (b : β) (xs : List γ) :
    eval answer (xs.foldlM f b) = xs.foldlM (fun b x => eval answer (f b x)) b := by
  induction xs generalizing b with
  | nil => rfl
  | cons x xs ih =>
    rw [List.foldlM_cons, List.foldlM_cons, eval_bind]
    exact bind_congr fun b => ih b

end

end Async

end

end BoingObserver.Oracle
