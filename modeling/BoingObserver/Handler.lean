import BoingObserver.Oracle

/-!
# Questions answered by programs

A program over some questions is run on top of programs over others: a client on
top of a server, where a question of the client becomes what the server asks.

* `handle_bind`: a sequence is handled part by part.
* `run_embed`: a program whose questions are only renamed runs as before, in a part of the
  longer trace.
* `exec_handle_ask`: one question is the run of its answer.
-/

namespace BoingObserver.Oracle

section

variable {Q Q' : Type} {A : Q → Type} {B : Q' → Type} {α β ε : Type}

namespace Prog

/-- Every question of the program is answered by a program. -/
def handle (h : (q : Q) → Prog B (A q)) : Prog A α → Prog B α
  | .ret a => .ret a
  | .ask q next => (h q).bind fun a => (next a).handle h

/-- Every question of the program is answered by a program that may throw, which ends it. -/
def handleThrowing (h : (q : Q) → Async B ε (A q)) : Prog A α → Async B ε α
  | .ret a => Pure.pure a
  | .ask q next => h q >>= fun a => (next a).handleThrowing h

variable {h : (q : Q) → Prog B (A q)}

@[simp] theorem handle_pure (a : α) : (Pure.pure a : Prog A α).handle h = Pure.pure a := rfl

/-- **A sequence is handled part by part.** -/
theorem handle_bind (p : Prog A α) (f : α → Prog A β) :
    (p >>= f).handle h = p.handle h >>= fun a => (f a).handle h := by
  change (p.bind f).handle h = (p.handle h).bind _
  induction p with
  | ret a => rfl
  | ask q next ih =>
    rw [Prog.bind, handle, handle, bind_assoc]
    exact congrArg _ (funext ih)

theorem handle_query (q : Q) : (query q : Prog A (A q)).handle h = h q := bind_ret (h q)

/-- A question and its answer under another name. -/
def rename (f : Q → Q') (s : Σ q, B (f q)) : Σ q, B q := ⟨f s.1, s.2⟩

/-- **Renamed questions**: the run is that of the program itself, against the answers it gets
there. -/
theorem run_embed (f : Q → Q') (p : Prog (fun q => B (f q)) α) (env : Env B) (tr : Trace B)
    (t : Trace fun q => B (f q)) :
    (p.handle fun q => query (f q)).run env (tr ++ t.map (rename f)) =
      ((p.run (fun t q => env (tr ++ t.map (rename f)) (f q)) t).1,
        tr ++ (p.run (fun t q => env (tr ++ t.map (rename f)) (f q)) t).2.map (rename f)) := by
  induction p generalizing t with
  | ret a => rfl
  | ask q next ih =>
    have hstep := ih (env (tr ++ t.map (rename f)) (f q))
      (t ++ [⟨q, env (tr ++ t.map (rename f)) (f q)⟩])
    rw [List.map_append, ← List.append_assoc] at hstep
    exact hstep

end Prog

namespace Async

def ask (q : Q) : Async A ε (A q) := ExceptT.lift (Prog.query q)

theorem exec_ask (env : Env A) (q : Q) (tr : Trace A) :
    exec env (ask q : Async A ε (A q)) tr = (.ok (env tr q), tr ++ [⟨q, env tr q⟩]) := rfl

def handle (h : (q : Q) → Prog B (A q)) (p : Async A ε α) : Async B ε α :=
  ExceptT.mk (p.run.handle h)

variable {h : (q : Q) → Prog B (A q)}

theorem handle_bind (p : Async A ε α) (f : α → Async A ε β) :
    handle h (p >>= f) = handle h p >>= fun a => handle h (f a) := by
  refine ExceptT.ext ?_
  change ((p >>= f).run).handle h = (handle h p >>= fun a => handle h (f a)).run
  rw [ExceptT.run_bind, ExceptT.run_bind, Prog.handle_bind]
  refine congrArg _ (funext fun r => ?_)
  cases r with
  | error e => rfl
  | ok a => rfl

theorem handle_ofExcept (r : Except ε α) : handle h (ofExcept r) = ofExcept r := rfl

theorem handle_attempt (p : Async A ε α) : handle h (attempt p) = attempt (handle h p) := by
  refine ExceptT.ext ?_
  change (Except.ok <$> p.run).handle h = Except.ok <$> p.run.handle h
  rw [map_eq_pure_bind, map_eq_pure_bind, Prog.handle_bind]
  rfl

/-- **One question** is the run of its answer. -/
theorem exec_handle_ask (env : Env B) (q : Q) (tr : Trace B) :
    exec env (handle h (ask q : Async A ε (A q))) tr =
      (.ok ((h q).run env tr).1, ((h q).run env tr).2) := by
  have hrun : (handle h (ask q : Async A ε (A q))).run =
      (Except.ok <$> h q : Prog B (Except ε (A q))) := by
    change (Prog.query q >>= fun a => Pure.pure (Except.ok a)).handle h = _
    rw [Prog.handle_bind, Prog.handle_query, map_eq_pure_bind]
    rfl
  rw [exec, hrun, map_eq_pure_bind, Prog.run_bind]
  rfl

end Async

end

end BoingObserver.Oracle
