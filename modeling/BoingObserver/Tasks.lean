import BoingObserver.Answered
import BoingObserver.Overlap
import Mathlib.Algebra.Order.Group.Int

/-!
# Tasks on one thread

A task is code that runs by itself until it awaits an answer.  Tasks share a state and a clock;
while one of them awaits, the others run, in any order, and may change the state.

* `Safe`: what a task does, if all that it can rely on is an invariant which every task keeps.
* `safe_bind`, `safe_ofProg`: tasks in sequence, and programs that touch no state.
* `run_safe`: in every run of tasks that are safe, each ends as it should.
-/

namespace BoingObserver.Tasks

open Oracle Overlap

/-- Code that reads and writes a state, and awaits answers. -/
inductive Task (σ : Type) {Q : Type} (A : Q → Type) (α : Type) : Type
  | done (a : α)
  | read (next : σ → Task σ A α)
  | now (next : ℤ → Task σ A α)
  | write (f : σ → σ) (next : Task σ A α)
  | await (q : Q) (next : A q → Task σ A α)

structure Entry {Q : Type} (A : Q → Type) where
  task : ℕ
  time : ℤ
  question : Q
  answer : A question

/-- What tasks share, and every answer so far. -/
structure World (σ : Type) {Q : Type} (A : Q → Type) where
  clock : ℤ
  state : σ
  log : List (Entry A)

section

variable {σ Q : Type} {A : Q → Type} {α β : Type}

namespace World

def own (w : World σ A) (i : ℕ) : List (Entry A) := w.log.filter (·.task = i)

def set (w : World σ A) (f : σ → σ) : World σ A := { w with state := f w.state }

def answered (w : World σ A) (i : ℕ) (q : Q) (a : A q) : World σ A :=
  { w with log := w.log ++ [⟨i, w.clock, q, a⟩] }

structure Later (w w' : World σ A) : Prop where
  clock_le : w.clock ≤ w'.clock
  log_prefix : w.log <+: w'.log

variable {w w' w'' : World σ A} {i j : ℕ} {q : Q} {a : A q}

theorem Later.refl (w : World σ A) : Later w w := ⟨le_rfl, List.prefix_refl _⟩

theorem Later.trans (h : Later w w') (h' : Later w' w'') : Later w w'' :=
  ⟨h.clock_le.trans h'.clock_le, h.log_prefix.trans h'.log_prefix⟩

theorem later_set (f : σ → σ) : Later w (w.set f) := ⟨le_rfl, List.prefix_refl _⟩

theorem later_answered : Later w (w.answered i q a) := ⟨le_rfl, List.prefix_append _ _⟩

theorem own_prefix (h : Later w w') (i : ℕ) : w.own i <+: w'.own i := by
  obtain ⟨more, hmore⟩ := h.log_prefix
  rw [own, own, ← hmore, List.filter_append]
  exact List.prefix_append _ _

theorem own_answered_self : (w.answered i q a).own i = w.own i ++ [⟨i, w.clock, q, a⟩] := by
  rw [own, answered, List.filter_append, own]
  congr 1
  exact List.filter_cons_of_pos (decide_eq_true rfl)

theorem own_answered_of_ne (h : j ≠ i) : (w.answered i q a).own j = w.own j := by
  rw [own, answered, List.filter_append, own]
  have hnil : [(⟨i, w.clock, q, a⟩ : Entry A)].filter (·.task = j) = [] :=
    List.filter_cons_of_neg (by simpa using Ne.symm h)
  rw [hnil, List.append_nil]

end World

/-! ## Code -/

namespace Task

def bind : Task σ A α → (α → Task σ A β) → Task σ A β
  | .done a, f => f a
  | .read next, f => .read fun s => (next s).bind f
  | .now next, f => .now fun t => (next t).bind f
  | .write g next, f => .write g (next.bind f)
  | .await q next, f => .await q fun a => (next a).bind f

instance : Monad (Task σ A) where
  pure := Task.done
  bind := Task.bind

def state : Task σ A σ := .read .done

def clock : Task σ A ℤ := .now .done

def modify (f : σ → σ) : Task σ A Unit := .write f (.done ())

def query (q : Q) : Task σ A (A q) := .await q .done

def ofProg : Prog A α → Task σ A α
  | .ret a => .done a
  | .ask q next => .await q fun a => ofProg (next a)

/-- The code runs until it awaits an answer, or ends. -/
def advance : Task σ A α → World σ A → Task σ A α × World σ A
  | .read next, w => (next w.state).advance w
  | .now next, w => (next w.clock).advance w
  | .write f next, w => next.advance (w.set f)
  | .done a, w => (.done a, w)
  | .await q next, w => (.await q next, w)

/-- The code has ended, or awaits an answer. -/
def Settled : Task σ A α → Prop
  | .done _ | .await _ _ => True
  | _ => False

end Task

/-! ## Runs -/

/-- A task that was started: the world it was started in, and what is left of it. -/
structure Thread (J : Type) (σ : Type) {Q : Type} (A : Q → Type) (α : Type) where
  job : J
  begun : World σ A
  task : Task σ A α

structure Pool (J : Type) (σ : Type) {Q : Type} (A : Q → Type) (α : Type) where
  world : World σ A
  threads : List (Thread J σ A α)

/-- A task is started, one gets the answer it awaits, or time passes. -/
inductive Event (J : Type) {Q : Type} (A : Q → Type)
  | start (job : J)
  | answer (i : ℕ) (answers : (q : Q) → A q)
  | tick (ms : ℕ)

variable {J : Type}

def Pool.initial (now : ℤ) (s : σ) : Pool J σ A α := ⟨⟨now, s, []⟩, []⟩

/-- A thread goes on; of no effect when it has ended. -/
def Pool.resume (p : Pool J σ A α) (i : ℕ) (answers : (q : Q) → A q) : Pool J σ A α :=
  match p.threads[i]? with
  | some ⟨job, begun, .await q next⟩ =>
    let r := (next (answers q)).advance (p.world.answered i q (answers q))
    ⟨r.2, p.threads.set i ⟨job, begun, r.1⟩⟩
  | _ => p

def step (code : J → Task σ A α) (p : Pool J σ A α) : Event J A → Pool J σ A α
  | .start job =>
    let r := (code job).advance p.world
    ⟨r.2, p.threads ++ [⟨job, p.world, r.1⟩]⟩
  | .answer i answers => p.resume i answers
  | .tick ms => { p with world := { p.world with clock := p.world.clock + ms } }

/-! ## Safety -/

/-- An invariant that answers and the clock do not disturb. -/
structure Steady (Inv : World σ A → Prop) : Prop where
  later : ∀ {w w'}, Inv w → World.Later w w' → w'.state = w.state → Inv w'

/-- From a world, the task `i` keeps the invariant and ends as `Post` says, whatever happens while
it awaits, as long as the others keep the invariant too. -/
def Safe (Inv : World σ A → Prop) (i : ℕ) (Post : α → World σ A → Prop) :
    Task σ A α → World σ A → Prop
  | .done a, w => Post a w
  | .read next, w => Safe Inv i Post (next w.state) w
  | .now next, w => Safe Inv i Post (next w.clock) w
  | .write f next, w => Inv (w.set f) ∧ Safe Inv i Post next (w.set f)
  | .await q next, w => ∀ w' a, Inv w' → World.Later w w' → w'.own i = w.own i →
      Safe Inv i Post (next a) (w'.answered i q a)

variable {Inv : World σ A → Prop} {i : ℕ} {Post : α → World σ A → Prop}

theorem Steady.answered (hinv : Steady Inv) {w : World σ A} {q : Q} {a : A q} (h : Inv w) :
    Inv (w.answered i q a) :=
  hinv.later h World.later_answered rfl

theorem safe_pure {a : α} {w : World σ A} : Safe Inv i Post (pure a) w ↔ Post a w := Iff.rfl

theorem safe_state {f : σ → Task σ A α} {w : World σ A} :
    Safe Inv i Post (Task.state >>= f) w ↔ Safe Inv i Post (f w.state) w :=
  Iff.rfl

theorem safe_clock {f : ℤ → Task σ A α} {w : World σ A} :
    Safe Inv i Post (Task.clock >>= f) w ↔ Safe Inv i Post (f w.clock) w :=
  Iff.rfl

theorem safe_modify {g : σ → σ} {f : Unit → Task σ A α} {w : World σ A} :
    Safe Inv i Post (Task.modify g >>= f) w ↔
      Inv (w.set g) ∧ Safe Inv i Post (f ()) (w.set g) :=
  Iff.rfl

theorem safe_query {q : Q} {f : A q → Task σ A α} {w : World σ A} :
    Safe Inv i Post (Task.query q >>= f) w ↔ ∀ w' a, Inv w' → World.Later w w' →
      w'.own i = w.own i → Safe Inv i Post (f a) (w'.answered i q a) :=
  Iff.rfl

/-- **Tasks in sequence.** -/
theorem safe_bind (hinv : Steady Inv) {Mid : α → World σ A → Prop} {t : Task σ A α}
    {f : α → Task σ A β} {Post : β → World σ A → Prop} {w : World σ A} (hw : Inv w)
    (ht : Safe Inv i Mid t w)
    (hf : ∀ a w', Inv w' → World.Later w w' → Mid a w' → Safe Inv i Post (f a) w') :
    Safe Inv i Post (t >>= f) w := by
  change Safe Inv i Post (t.bind f) w
  induction t generalizing w with
  | done a => exact hf a w hw (.refl w) ht
  | read next ih => exact ih w.state hw ht hf
  | now next ih => exact ih w.clock hw ht hf
  | write g next ih =>
    exact ⟨ht.1, ih ht.1 ht.2 fun a w' hw' hlater => hf a w' hw' ((World.later_set g).trans hlater)⟩
  | await q next ih =>
    intro w' a hw' hlater hown
    refine ih a (hinv.answered hw') (ht w' a hw' hlater hown) fun b w'' hw'' hlater' => ?_
    exact hf b w'' hw'' ((hlater.trans World.later_answered).trans hlater')

/-! ## Programs -/

def traceOf (es : List (Entry A)) : Trace A := es.map fun e => ⟨e.question, e.answer⟩

/-- The task `i` has got these answers since `w`, in this order. -/
structure Since (i : ℕ) (w w' : World σ A) (es : List (Entry A)) : Prop where
  own_eq : w'.own i = w.own i ++ es
  after : ∀ e ∈ es, w.clock ≤ e.time
  before : ∀ e ∈ es, e.time ≤ w'.clock

theorem Since.refl (i : ℕ) (w : World σ A) : Since i w w [] :=
  ⟨(List.append_nil _).symm, by simp, by simp⟩

theorem Since.append {w w' w'' : World σ A} {es es' : List (Entry A)} (h : Since i w w' es)
    (h' : Since i w' w'' es') (hlater : World.Later w w') (hlater' : World.Later w' w'') :
    Since i w w'' (es ++ es') := by
  refine ⟨?_, fun e he => ?_, fun e he => ?_⟩
  · rw [h'.own_eq, h.own_eq, List.append_assoc]
  · rcases List.mem_append.mp he with he | he
    · exact h.after e he
    · exact hlater.clock_le.trans (h'.after e he)
  · rcases List.mem_append.mp he with he | he
    · exact (h.before e he).trans hlater'.clock_le
    · exact h'.before e he

theorem since_answered {w w' : World σ A} {q : Q} {a : A q} (hlater : World.Later w w')
    (hown : w'.own i = w.own i) : Since i w (w'.answered i q a) [⟨i, w'.clock, q, a⟩] := by
  refine ⟨?_, ?_, ?_⟩
  · rw [World.own_answered_self, hown]
  · simpa using hlater.clock_le
  · simp [World.answered]

/-- **A program** ends with what the answers to its questions give. -/
theorem safe_ofProg (hinv : Steady Inv) {p : Prog A α} {w : World σ A} (hw : Inv w)
    (h : ∀ es a w', Inv w' → World.Later w w' → Since i w w' es → Gives p (traceOf es) a →
      Post a w') :
    Safe Inv i Post (Task.ofProg p) w := by
  induction p generalizing w with
  | ret a => exact h [] a w hw (.refl w) (.refl i w) (.ret a)
  | ask q next ih =>
    intro w' x hw' hlater hown
    refine ih x (hinv.answered hw') fun es a w'' hw'' hlater' hsince hgives => ?_
    have hlater₁ : World.Later w (w'.answered i q x) := hlater.trans World.later_answered
    exact h (⟨i, w'.clock, q, x⟩ :: es) a w'' hw'' (hlater₁.trans hlater')
      ((since_answered hlater hown).append hsince hlater₁ hlater') (.ask x hgives)

/-! ## Threads -/

theorem settled_advance (t : Task σ A α) (w : World σ A) : (t.advance w).1.Settled := by
  induction t generalizing w with
  | done a => exact trivial
  | read next ih => exact ih _ w
  | now next ih => exact ih _ w
  | write f next ih => exact ih _
  | await q next => exact trivial

theorem Safe.advance {t : Task σ A α} {w : World σ A} (h : Safe Inv i Post t w) (hw : Inv w) :
    Safe Inv i Post (t.advance w).1 (t.advance w).2 ∧ Inv (t.advance w).2 := by
  induction t generalizing w with
  | done a => exact ⟨h, hw⟩
  | read next ih => exact ih _ h hw
  | now next ih => exact ih _ h hw
  | write f next ih => exact ih h.2 h.1
  | await q next => exact ⟨h, hw⟩

theorem later_advance (t : Task σ A α) (w : World σ A) : World.Later w (t.advance w).2 := by
  induction t generalizing w with
  | done a => exact .refl w
  | read next ih => exact ih _ w
  | now next ih => exact ih _ w
  | write f next ih => exact (World.later_set f).trans (ih _)
  | await q next => exact .refl w

theorem own_advance (t : Task σ A α) (w : World σ A) (j : ℕ) : (t.advance w).2.own j = w.own j := by
  induction t generalizing w with
  | done a => rfl
  | read next ih => exact ih _ w
  | now next ih => exact ih _ w
  | write f next ih => exact ih _
  | await q next => rfl

/-- What was said of the end of a task is not undone by others. -/
def Stable (Inv : World σ A → Prop) (i : ℕ) (Post : α → World σ A → Prop) : Prop :=
  ∀ a w w', Post a w → Inv w' → World.Later w w' → w'.own i = w.own i → Post a w'

theorem Safe.later (hstable : Stable Inv i Post) {t : Task σ A α} (ht : t.Settled)
    {w w' : World σ A} (h : Safe Inv i Post t w) (hw' : Inv w') (hlater : World.Later w w')
    (hown : w'.own i = w.own i) : Safe Inv i Post t w' := by
  cases t with
  | done a => exact hstable a w w' h hw' hlater hown
  | await q next =>
    exact fun w'' a hw'' hlater' hown' =>
      h w'' a hw'' (hlater.trans hlater') (hown'.trans hown)
  | read next => exact ht.elim
  | now next => exact ht.elim
  | write f next => exact ht.elim

/-- All threads are safe, and no answer is for a thread that was not started. -/
structure Good (Inv : World σ A → Prop) (Post : J → World σ A → ℕ → α → World σ A → Prop)
    (p : Pool J σ A α) : Prop where
  inv : Inv p.world
  fresh : ∀ i, p.threads.length ≤ i → p.world.own i = []
  safe : ∀ i t, p.threads[i]? = some t →
    t.task.Settled ∧ World.Later t.begun p.world ∧ Safe Inv i (Post t.job t.begun i) t.task p.world

variable {Ends : J → World σ A → ℕ → α → World σ A → Prop} {p : Pool J σ A α}
  {code : J → Task σ A α}

/-- The other threads are safe after one has run. -/
theorem Good.others (h : Good Inv Ends p) (hstable : ∀ j w₀ i, Stable Inv i (Ends j w₀ i))
    {w : World σ A} (hw : Inv w) (hlater : World.Later p.world w) {i : ℕ}
    (hown : w.own i = p.world.own i) {t : Thread J σ A α} (ht : p.threads[i]? = some t) :
    t.task.Settled ∧ World.Later t.begun w ∧ Safe Inv i (Ends t.job t.begun i) t.task w := by
  obtain ⟨hsettled, hbegun, hsafe⟩ := h.safe i t ht
  exact ⟨hsettled, hbegun.trans hlater, hsafe.later (hstable _ _ _) hsettled hw hlater hown⟩

theorem Good.start (h : Good Inv Ends p) (hstable : ∀ j w₀ i, Stable Inv i (Ends j w₀ i))
    (hcode : ∀ j i w, Inv w → w.own i = [] → Safe Inv i (Ends j w i) (code j) w) (job : J) :
    Good Inv Ends (step code p (.start job)) := by
  have hlater := later_advance (code job) p.world
  have hown := own_advance (code job) p.world
  obtain ⟨hsafe, hw⟩ :=
    (hcode job p.threads.length p.world h.inv (h.fresh _ le_rfl)).advance h.inv
  refine ⟨hw, fun i hi => ?_, fun i t ht => ?_⟩
  · have hi' : p.threads.length + 1 ≤ i := by simpa [step] using hi
    rw [show (step code p (.start job)).world = ((code job).advance p.world).2 from rfl, hown]
    exact h.fresh i (by omega)
  · change (p.threads ++ [_])[i]? = some t at ht
    rcases Nat.lt_trichotomy i p.threads.length with hlt | rfl | hgt
    · rw [List.getElem?_append_left hlt] at ht
      exact h.others hstable hw hlater (hown i) ht
    · rw [List.getElem?_concat_length] at ht
      obtain rfl := Option.some.inj ht
      exact ⟨settled_advance _ _, hlater, hsafe⟩
    · rw [List.getElem?_eq_none (by simp; omega)] at ht
      cases ht

theorem Good.resume (hinv : Steady Inv) (h : Good Inv Ends p)
    (hstable : ∀ j w₀ i, Stable Inv i (Ends j w₀ i)) (i : ℕ) (answers : (q : Q) → A q) :
    Good Inv Ends (p.resume i answers) := by
  rw [Pool.resume]
  split
  next job begun q next hi =>
    obtain ⟨-, hbegun, hsafe⟩ := h.safe i _ hi
    have hlen : i < p.threads.length := (List.getElem?_eq_some_iff.mp hi).1
    have hsafe' := hsafe p.world (answers q) h.inv (.refl _) rfl
    obtain ⟨hrest, hw⟩ := hsafe'.advance (hinv.answered h.inv)
    have hlater : World.Later p.world _ :=
      World.later_answered.trans (later_advance (next (answers q)) (p.world.answered i q (answers q)))
    have hown : ∀ j ≠ i, World.own _ j = p.world.own j := fun j hj =>
      (own_advance (next (answers q)) (p.world.answered i q (answers q)) j).trans
        (World.own_answered_of_ne hj)
    refine ⟨hw, fun j hj => ?_, fun j t ht => ?_⟩
    · have hj' : p.threads.length ≤ j := by simpa using hj
      exact (hown j (by omega)).trans (h.fresh j hj')
    · change (p.threads.set i _)[j]? = some t at ht
      by_cases hij : i = j
      · subst hij
        rw [List.getElem?_set_self hlen] at ht
        obtain rfl := Option.some.inj ht
        exact ⟨settled_advance _ _, hbegun.trans hlater, hrest⟩
      · rw [List.getElem?_set_ne hij] at ht
        exact h.others hstable hw hlater (hown j (Ne.symm hij)) ht
  next => exact h

theorem Good.step (hinv : Steady Inv) (h : Good Inv Ends p)
    (hstable : ∀ j w₀ i, Stable Inv i (Ends j w₀ i))
    (hcode : ∀ j i w, Inv w → w.own i = [] → Safe Inv i (Ends j w i) (code j) w)
    (e : Event J A) : Good Inv Ends (step code p e) := by
  cases e with
  | start job => exact h.start hstable hcode job
  | answer i answers => exact h.resume hinv hstable i answers
  | tick ms =>
    have hlater : World.Later p.world { p.world with clock := p.world.clock + ms } :=
      ⟨Int.le_add_of_nonneg_right (Int.natCast_nonneg ms), List.prefix_refl _⟩
    have hw := hinv.later h.inv hlater rfl
    exact ⟨hw, h.fresh, fun i t ht => h.others hstable hw hlater rfl ht⟩

/-- **Safe tasks end as they should**, in every run. -/
theorem run_safe (hinv : Steady Inv) (hstable : ∀ j w₀ i, Stable Inv i (Ends j w₀ i))
    (hcode : ∀ j i w, Inv w → w.own i = [] → Safe Inv i (Ends j w i) (code j) w) {now : ℤ} {s : σ}
    (hstart : Inv ⟨now, s, []⟩) (events : List (Event J A)) :
    Good Inv Ends (run (step code) (Pool.initial now s) events) := by
  have hall : AllAllowed (step code) (fun _ _ => True) (Pool.initial now s) events :=
    fun _ _ _ => trivial
  refine run_invariant (P := Good Inv Ends) ⟨hstart, fun _ _ => rfl, fun i t ht => ?_⟩
    (fun p e hp _ => hp.step hinv hstable hcode e) hall
  cases ht

def Pool.EndsAs (p : Pool J σ A α) (Ends : J → World σ A → ℕ → α → World σ A → Prop) : Prop :=
  ∀ i job begun a, p.threads[i]? = some ⟨job, begun, .done a⟩ → Ends job begun i a p.world

theorem Good.endsAs (h : Good Inv Ends p) : p.EndsAs Ends :=
  fun i _ _ _ hi => (h.safe i _ hi).2.2

end

end BoingObserver.Tasks
