import BoingObserver.Js.Map
import BoingObserver.Overlap
import Mathlib.Data.Int.Notation

/-!
# Caches of promises

A cache keeps, for each key, the promise of a load, so that callers share it while it
is in flight and for a while after.  Loads settle in any order, whatever became of
their entries in the meantime.

* `sound_run`: an entry is stored under the key of its load.
* `get_run_of_kept`: an entry that is neither evicted nor dropped by a failure stays.
-/

namespace BoingObserver.PromiseCache

open Js
open Overlap (run AllAllowed run_invariant)

inductive Outcome
  | pending
  | resolved
  | rejected
  deriving DecidableEq

/-- A load; its promise is its place among the loads. -/
structure Load (κ : Type) where
  key : κ
  outcome : Outcome

/-- How a cache treats its entries: `α` is what a call is given besides its key, `β` the other
operations on the entries. -/
structure Cache (κ ε α β : Type) [DecidableEq κ] where
  promise : ε → ℕ
  /-- An entry is returned at a time. -/
  fresh : ℤ → ε → Bool
  /-- What is deleted before a new entry is set. -/
  prepare : ℤ → κ → Map κ ε → Map κ ε
  /-- The time when the load has been started, and the entry that is then set. -/
  clock : ℤ → α → ℤ
  entry : ℤ → α → ℕ → ε
  /-- A load that fails deletes the entry that is stored under its key. -/
  drops : ℕ → ε → Bool
  op : β → Map κ ε → Map κ ε
  promise_entry : ∀ now a id, promise (entry now a id) = id
  get_of_get_prepare : ∀ now key m k e,
    (prepare now key m).get k = some e → m.get k = some e
  get_of_get_op : ∀ b m k e, (op b m).get k = some e → m.get k = some e

structure State (κ ε : Type) where
  now : ℤ
  entries : Map κ ε
  loads : List (Load κ)

inductive Event (κ α β : Type)
  | call (key : κ) (a : α)
  | settle (id : ℕ) (ok : Bool)
  | tick (now : ℤ)
  | op (b : β)

variable {κ ε α β : Type}

def State.initial (now : ℤ) : State κ ε := ⟨now, Map.empty, []⟩

variable [DecidableEq κ]

def start (C : Cache κ ε α β) (s : State κ ε) (key : κ) (a : α) : ℕ × State κ ε :=
  (s.loads.length,
    { now := C.clock s.now a
      entries := (C.prepare s.now key s.entries).set key (C.entry s.now a s.loads.length)
      loads := s.loads ++ [⟨key, .pending⟩] })

def call (C : Cache κ ε α β) (s : State κ ε) (key : κ) (a : α) : ℕ × State κ ε :=
  match s.entries.get key with
  | none => start C s key a
  | some e => if C.fresh s.now e then (C.promise e, s) else start C s key a

/-- The entries after the load `id` of a key has failed. -/
def rejectEntry (C : Cache κ ε α β) (m : Map κ ε) (key : κ) (id : ℕ) : Map κ ε :=
  match m.get key with
  | none => m
  | some e => if C.drops id e then m.delete key else m

def settle (C : Cache κ ε α β) (s : State κ ε) (id : ℕ) (ok : Bool) : State κ ε :=
  match s.loads[id]? with
  | some ⟨key, .pending⟩ =>
    { s with
      entries := if ok then s.entries else rejectEntry C s.entries key id
      loads := s.loads.set id ⟨key, if ok then .resolved else .rejected⟩ }
  | _ => s

def step (C : Cache κ ε α β) (s : State κ ε) : Event κ α β → State κ ε
  | .call key a => (call C s key a).2
  | .settle id ok => settle C s id ok
  | .tick now => { s with now := now }
  | .op b => { s with entries := C.op b s.entries }

/-! ## Calls -/

/-- **A fresh entry is shared**: its promise is returned and nothing happens. -/
theorem call_of_fresh {C : Cache κ ε α β} {s : State κ ε} {key : κ} {e : ε}
    (he : s.entries.get key = some e) (hfresh : C.fresh s.now e = true) (a : α) :
    call C s key a = (C.promise e, s) := by
  rw [call, he]
  exact if_pos hfresh

/-- A call returns the promise of a fresh entry, or starts a load. -/
theorem call_cases (C : Cache κ ε α β) (s : State κ ε) (key : κ) (a : α) :
    (∃ e, s.entries.get key = some e ∧ C.fresh s.now e = true ∧
      call C s key a = (C.promise e, s)) ∨
    (∀ e, s.entries.get key = some e → C.fresh s.now e = false) ∧
      call C s key a = start C s key a := by
  cases he : s.entries.get key with
  | none =>
    refine Or.inr ⟨?_, ?_⟩
    · rintro _ ⟨⟩
    · rw [call, he]
  | some e =>
    have hcall : call C s key a =
        if C.fresh s.now e then (C.promise e, s) else start C s key a := by
      rw [call, he]
    cases hfresh : C.fresh s.now e with
    | true => exact Or.inl ⟨e, rfl, hfresh, hcall.trans (if_pos hfresh)⟩
    | false =>
      refine Or.inr ⟨?_, hcall.trans (if_neg (Bool.eq_false_iff.mp hfresh))⟩
      rintro _ ⟨⟩
      exact hfresh

theorem get_call (C : Cache κ ε α β) (s : State κ ε) (key : κ) (a : α) :
    ∃ e, (call C s key a).2.entries.get key = some e ∧ C.promise e = (call C s key a).1 := by
  rcases call_cases C s key a with ⟨e, he, -, hcall⟩ | ⟨-, hcall⟩
  · rw [hcall]
    exact ⟨e, he, rfl⟩
  · rw [hcall]
    exact ⟨_, Map.get_set_self _ _ _, C.promise_entry _ _ _⟩

/-! ## Failures -/

theorem get_rejectEntry_of_ne {C : Cache κ ε α β} {m : Map κ ε} {key : κ} {id : ℕ} {k : κ}
    (hk : k ≠ key) : (rejectEntry C m key id).get k = m.get k := by
  rw [rejectEntry]
  split
  · rfl
  · split
    · exact Map.get_delete_of_ne m hk
    · rfl

theorem get_rejectEntry_self {C : Cache κ ε α β} {m : Map κ ε} {key : κ} {id : ℕ} {e : ε}
    (he : m.get key = some e) :
    (rejectEntry C m key id).get key = if C.drops id e then none else some e := by
  rw [rejectEntry, he]
  change (if C.drops id e then m.delete key else m).get key = _
  split
  · exact Map.get_delete_self m key
  · exact he

theorem get_of_get_rejectEntry {C : Cache κ ε α β} {m : Map κ ε} {key : κ} {id : ℕ} {k : κ} {e : ε}
    (h : (rejectEntry C m key id).get k = some e) : m.get k = some e := by
  by_cases hk : k = key
  · subst hk
    cases he : m.get k with
    | none =>
      rw [rejectEntry, he] at h
      exact he.symm.trans h
    | some e' =>
      rw [get_rejectEntry_self he] at h
      split at h
      · cases h
      · exact h
  · rwa [get_rejectEntry_of_ne hk] at h

theorem size_rejectEntry_le (C : Cache κ ε α β) (m : Map κ ε) (key : κ) (id : ℕ) :
    (rejectEntry C m key id).size ≤ m.size := by
  rw [rejectEntry]
  split
  · exact Nat.le_refl _
  · split
    · exact Map.size_delete_le m key
    · exact Nat.le_refl _

/-- What a settlement does: nothing, or it settles a load and drops at most one entry. -/
theorem settle_cases (C : Cache κ ε α β) (s : State κ ε) (id : ℕ) (ok : Bool) :
    settle C s id ok = s ∨ ∃ key, s.loads[id]? = some ⟨key, .pending⟩ ∧
      settle C s id ok =
        { s with
          entries := if ok then s.entries else rejectEntry C s.entries key id
          loads := s.loads.set id ⟨key, if ok then .resolved else .rejected⟩ } := by
  rw [settle]
  split
  next key h => exact Or.inr ⟨key, h, rfl⟩
  next => exact Or.inl rfl

/-! ## Entries and their loads -/

def Sound (C : Cache κ ε α β) (s : State κ ε) : Prop :=
  ∀ k e, s.entries.get k = some e → (s.loads[C.promise e]?).map Load.key = some k

theorem sound_start {C : Cache κ ε α β} {s : State κ ε} (h : Sound C s) (key : κ) (a : α) :
    Sound C (start C s key a).2 := by
  intro k e he
  change ((C.prepare s.now key s.entries).set key (C.entry s.now a s.loads.length)).get k = _ at he
  change ((s.loads ++ [⟨key, .pending⟩])[C.promise e]?).map Load.key = _
  rw [Map.get_set] at he
  split at he
  next hk =>
    obtain rfl := Option.some.inj he
    rw [C.promise_entry, List.getElem?_concat_length, hk]
    rfl
  next =>
    have hold := h k e (C.get_of_get_prepare _ _ _ _ _ he)
    obtain ⟨l, hl, hkey⟩ := Option.map_eq_some_iff.mp hold
    rw [List.getElem?_append_left (List.getElem?_eq_some_iff.mp hl).1, hl, Option.map_some, hkey]

theorem sound_settle {C : Cache κ ε α β} {s : State κ ε} (h : Sound C s) (id : ℕ) (ok : Bool) :
    Sound C (settle C s id ok) := by
  rcases settle_cases C s id ok with heq | ⟨key, hl, heq⟩
  · rwa [heq]
  · rw [heq]
    intro k e he
    have hold : s.entries.get k = some e := by
      cases ok with
      | true => exact he
      | false => exact get_of_get_rejectEntry he
    have hk := h k e hold
    change ((s.loads.set id _)[C.promise e]?).map Load.key = _
    rw [List.getElem?_set]
    split
    next hid =>
      subst hid
      rw [hl, Option.map_some] at hk
      rw [if_pos (List.getElem?_eq_some_iff.mp hl).1]
      exact hk
    next => exact hk

theorem sound_step {C : Cache κ ε α β} {s : State κ ε} (h : Sound C s) (ev : Event κ α β) :
    Sound C (step C s ev) := by
  cases ev with
  | call key a =>
    rcases call_cases C s key a with ⟨e, -, -, hcall⟩ | ⟨-, hcall⟩
    · rw [step, hcall]
      exact h
    · rw [step, hcall]
      exact sound_start h key a
  | settle id ok => exact sound_settle h id ok
  | tick now => exact h
  | op b => exact fun k e he => h k e (C.get_of_get_op b _ k e he)

theorem sound_run (C : Cache κ ε α β) (now : ℤ) (events : List (Event κ α β)) :
    Sound C (run (step C) (State.initial now) events) := by
  have hall : AllAllowed (step C) (fun _ _ => True) (State.initial now) events :=
    fun _ _ _ => trivial
  refine run_invariant (P := Sound C) ?_ (fun _ e h _ => sound_step h e) hall
  intro k e he
  cases he

/-! ## Entries that stay -/

/-- The event is the failure of the load `id`, for a key. -/
def Fails (s : State κ ε) (ev : Event κ α β) (id : ℕ) (key : κ) : Prop :=
  ev = .settle id false ∧ s.loads[id]? = some ⟨key, .pending⟩

/-- An event that does not take the entry `e` of a key away: its load does not fail, calls of the
key find it fresh, calls of other keys do not evict it, and nothing else deletes it. -/
def Kept (C : Cache κ ε α β) (k : κ) (e : ε) (s : State κ ε) (ev : Event κ α β) : Prop :=
  (∀ key, ¬ Fails s ev (C.promise e) key) ∧
    match ev with
    | .call key a =>
      if key = k then C.fresh s.now e = true else (call C s key a).2.entries.get k = some e
    | .op b => (C.op b s.entries).get k = some e
    | _ => True

def DropsOwn (C : Cache κ ε α β) (s : State κ ε) (ev : Event κ α β) : Prop :=
  ∀ id key, Fails s ev id key → ∀ e, s.entries.get key = some e → C.drops id e = true →
    C.promise e = id

/-- **A failure drops only its own entry**, where the cache checks whose it is. -/
theorem get_settle_of_own {C : Cache κ ε α β} {k : κ} {e : ε} {s : State κ ε} {id : ℕ} {ok : Bool}
    (he : s.entries.get k = some e) (hkept : ∀ key, ¬ Fails s (.settle id ok : Event κ α β)
      (C.promise e) key) (hown : DropsOwn C s (.settle id ok)) :
    (settle C s id ok).entries.get k = some e := by
  rcases settle_cases C s id ok with heq | ⟨key, hl, heq⟩
  · rwa [heq]
  · rw [heq]
    cases ok with
    | true => exact he
    | false =>
      change (rejectEntry C s.entries key id).get k = some e
      by_cases hk : k = key
      · subst hk
        rw [get_rejectEntry_self he]
        refine if_neg fun hdrops => ?_
        obtain rfl := hown id k ⟨rfl, hl⟩ e he hdrops
        exact hkept k ⟨rfl, hl⟩
      · rwa [get_rejectEntry_of_ne hk]

theorem get_step_of_kept {C : Cache κ ε α β} {k : κ} {e : ε} {s : State κ ε} {ev : Event κ α β}
    (he : s.entries.get k = some e) (hkept : Kept C k e s ev) (hown : DropsOwn C s ev) :
    (step C s ev).entries.get k = some e := by
  obtain ⟨hload, hkept⟩ := hkept
  cases ev with
  | call key a =>
    change if key = k then _ else _ at hkept
    split at hkept
    next hk =>
      subst hk
      rw [step, call_of_fresh he hkept]
      exact he
    next => exact hkept
  | settle id ok => exact get_settle_of_own he hload hown
  | tick now => exact he
  | op b => exact hkept

/-- **An entry stays** until it is evicted, replaced once it is not fresh, or its load fails. -/
theorem get_run_of_kept {C : Cache κ ε α β} {k : κ} {e : ε} {s : State κ ε}
    {events : List (Event κ α β)} (he : s.entries.get k = some e)
    (h : AllAllowed (step C) (fun s ev => Kept C k e s ev ∧ DropsOwn C s ev) s events) :
    (run (step C) s events).entries.get k = some e :=
  run_invariant (P := fun s => s.entries.get k = some e) he
    (fun _ _ he hev => get_step_of_kept he hev.1 hev.2) h

end BoingObserver.PromiseCache
