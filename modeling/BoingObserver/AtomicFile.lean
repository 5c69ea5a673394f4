import BoingObserver.Overlap
import Mathlib.Logic.Function.Basic

/-!
# Files replaced by a rename

A file is written under a temporary name, piece by piece, and then renamed to its own.  Writers
may fail or die at any point and run at the same time; a name stands for an inode, and a file that
is open is its inode, whatever becomes of the name.

* `refines`, `savedBy_cases`: a name holds nothing but the text that was committed to it last.
* `data_stable`: an inode that has a name of its own does not change any more.
-/

namespace BoingObserver.AtomicFile

open Overlap (run run_concat run_append AllAllowed run_invariant)
open Function (update)

variable {π χ ι : Type}

/-- A writer: its names, its text, its inode, and how much is written. -/
structure Writer (π χ : Type) where
  tmp : π
  final : π
  text : List χ
  inode : ℕ
  written : ℕ

structure Disk (π χ ι : Type) where
  dir : π → Option ℕ
  data : ℕ → List χ
  fresh : ℕ
  writers : ι → Option (Writer π χ)

inductive Event (π χ ι : Type)
  /-- The temporary file is opened and emptied, or made. -/
  | create (id : ι) (tmp final : π) (text : List χ)
  /-- The next `n` of the text are written. -/
  | write (id : ι) (n : ℕ)
  | rename (id : ι)
  /-- Something fails; the temporary name is removed, or that fails as well. -/
  | fail (id : ι) (unlinked : Bool)
  | die (id : ι)

def Disk.empty : Disk π χ ι := ⟨fun _ => none, fun _ => [], 0, fun _ => none⟩

def writeAt (old : List χ) (offset : ℕ) (piece : List χ) : List χ :=
  old.take offset ++ piece ++ old.drop (offset + piece.length)

def Disk.done (d : Disk π χ ι) (id : ι) : Option (Writer π χ) :=
  (d.writers id).filter fun w => w.written = w.text.length

/-- What is read under a name. -/
def Disk.read (d : Disk π χ ι) (p : π) : Option (List χ) := (d.dir p).map d.data

/-- The name and the text of a rename that takes place. -/
def committed (d : Disk π χ ι) : Event π χ ι → Option (π × List χ)
  | .rename id =>
    match d.done id with
    | some w => if (d.dir w.tmp).isSome then some (w.final, w.text) else none
    | none => none
  | _ => none

/-- A writer starts only if no other has the temporary name, and temporary names are not final
ones. -/
def Exclusive (isTmp : π → Prop) (d : Disk π χ ι) : Event π χ ι → Prop
  | .create id tmp final _ => d.writers id = none ∧ isTmp tmp ∧ ¬ isTmp final ∧
      ∀ id' w, d.writers id' = some w → w.tmp ≠ tmp
  | _ => True

structure Writer.Sound (isTmp : π → Prop) (d : Disk π χ ι) (w : Writer π χ) : Prop where
  dir : d.dir w.tmp = some w.inode
  data : d.data w.inode = w.text.take w.written
  tmp : isTmp w.tmp
  final : ¬ isTmp w.final
  written : w.written ≤ w.text.length

/-- What runs keep: an inode has one name, and a writer a temporary name of its own. -/
structure Sound (isTmp : π → Prop) (d : Disk π χ ι) : Prop where
  inj : ∀ {p q n}, d.dir p = some n → d.dir q = some n → p = q
  fresh : ∀ {p n}, d.dir p = some n → n < d.fresh
  writer : ∀ {id w}, d.writers id = some w → w.Sound isTmp d
  own : ∀ {id id' w w'}, d.writers id = some w → d.writers id' = some w' → w.tmp = w'.tmp → id = id'

variable {isTmp : π → Prop} {d : Disk π χ ι} {id : ι}

theorem sound_empty : Sound isTmp (Disk.empty : Disk π χ ι) where
  inj h := by cases h
  fresh h := by cases h
  writer h := by cases h
  own h := by cases h

theorem writeAt_take (text : List χ) {k : ℕ} (hk : k ≤ text.length) (n : ℕ) :
    writeAt (text.take k) k ((text.drop k).take n) =
      text.take (k + ((text.drop k).take n).length) := by
  have hlen : (text.take k).length = k := List.length_take_of_le hk
  have hrest : (text.take k).drop (k + ((text.drop k).take n).length) = [] :=
    List.drop_eq_nil_of_le (by omega)
  rw [writeAt, hrest, List.append_nil, List.take_take, Nat.min_self, List.take_add]
  congr 1
  rw [List.length_take, ← List.take_take, List.take_of_length_le (Nat.le_refl _)]

theorem Writer.Sound.of_eq {w : Writer π χ} {d' : Disk π χ ι} (h : w.Sound isTmp d)
    (hdir : d'.dir w.tmp = d.dir w.tmp) (hdata : d'.data w.inode = d.data w.inode) :
    w.Sound isTmp d' :=
  ⟨hdir.trans h.dir, hdata.trans h.data, h.tmp, h.final, h.written⟩

/-- The inode of a file that is opened has no other name. -/
theorem eq_of_dir_opened (h : Sound isTmp d) {tmp p : π}
    (hp : d.dir p = some ((d.dir tmp).getD d.fresh)) : p = tmp := by
  cases htmp : d.dir tmp with
  | some n =>
    rw [htmp] at hp
    exact h.inj hp htmp
  | none =>
    rw [htmp] at hp
    exact absurd (h.fresh hp) (Nat.lt_irrefl _)

theorem inode_ne (h : Sound isTmp d) {id id' : ι} {w w' : Writer π χ} (hw : d.writers id = some w)
    (hw' : d.writers id' = some w') (hid : id' ≠ id) : w'.inode ≠ w.inode ∧ w'.tmp ≠ w.tmp := by
  have htmp : w'.tmp ≠ w.tmp := fun e => hid (h.own hw' hw e)
  refine ⟨fun e => htmp (h.inj (h.writer hw').dir ?_), htmp⟩
  rw [e]
  exact (h.writer hw).dir

theorem done_eq_some {w : Writer π χ} (h : d.done id = some w) :
    d.writers id = some w ∧ w.written = w.text.length := by
  obtain ⟨hw, hlen⟩ := Option.filter_eq_some_iff.mp h
  exact ⟨hw, of_decide_eq_true hlen⟩

theorem read_of_eq {d' : Disk π χ ι} {p : π} (hdir : d'.dir p = d.dir p)
    (hdata : ∀ n, d.dir p = some n → d'.data n = d.data n) : d'.read p = d.read p := by
  rw [Disk.read, Disk.read, hdir]
  cases hp : d.dir p with
  | none => rfl
  | some n => exact congrArg some (hdata n hp)

/-! ## Writing -/

section

variable [DecidableEq ι]

def Disk.write (d : Disk π χ ι) (id : ι) (n : ℕ) : Disk π χ ι :=
  match d.writers id with
  | none => d
  | some w =>
    let piece := (w.text.drop w.written).take n
    { d with
      data := update d.data w.inode (writeAt (d.data w.inode) w.written piece)
      writers := update d.writers id (some { w with written := w.written + piece.length }) }

theorem writers_erased {id' : ι} {w : Writer π χ} (h : update d.writers id none id' = some w) :
    id' ≠ id ∧ d.writers id' = some w := by
  by_cases hid : id' = id
  · rw [hid, Function.update_self] at h
    cases h
  · rw [Function.update_of_ne hid] at h
    exact ⟨hid, h⟩

theorem writers_changed {id' : ι} {w w₀ : Writer π χ}
    (h : update d.writers id (some w₀) id' = some w) :
    (id' = id ∧ w = w₀) ∨ (id' ≠ id ∧ d.writers id' = some w) := by
  by_cases hid : id' = id
  · rw [hid, Function.update_self] at h
    exact .inl ⟨hid, (Option.some.inj h).symm⟩
  · rw [Function.update_of_ne hid] at h
    exact .inr ⟨hid, h⟩

theorem sound_write (h : Sound isTmp d) (n : ℕ) : Sound isTmp (d.write id n) := by
  rw [Disk.write]
  cases hw : d.writers id with
  | none => exact h
  | some w =>
    obtain ⟨hdir, hdata, htmp, hfinal, hwritten⟩ := h.writer hw
    refine ⟨h.inj, h.fresh, fun {id' w'} hw' => ?_, fun {id₁ id₂ w₁ w₂} h₁ h₂ heq => ?_⟩
    · rcases writers_changed hw' with ⟨rfl, rfl⟩ | ⟨hne, hw'⟩
      · refine ⟨hdir, ?_, htmp, hfinal, ?_⟩
        · refine (Function.update_self ..).trans ?_
          rw [hdata]
          exact writeAt_take w.text hwritten n
        · simp only [List.length_take, List.length_drop]
          omega
      · exact (h.writer hw').of_eq rfl (Function.update_of_ne (inode_ne h hw hw' hne).1 ..)
    · rcases writers_changed h₁ with ⟨rfl, rfl⟩ | ⟨-, h₁'⟩
      · rcases writers_changed h₂ with ⟨rfl, rfl⟩ | ⟨-, h₂'⟩
        · rfl
        · exact h.own hw h₂' heq
      · rcases writers_changed h₂ with ⟨rfl, rfl⟩ | ⟨-, h₂'⟩
        · exact h.own h₁' hw heq
        · exact h.own h₁' h₂' heq

end

/-! ## Names -/

section

variable [DecidableEq π]

theorem dir_changed {p q : π} {n : Option ℕ} {m : ℕ} (h : update d.dir q n p = some m) :
    (p = q ∧ n = some m) ∨ (p ≠ q ∧ d.dir p = some m) := by
  by_cases hp : p = q
  · rw [hp, Function.update_self] at h
    exact .inl ⟨hp, h⟩
  · rw [Function.update_of_ne hp] at h
    exact .inr ⟨hp, h⟩

def renamed (d : Disk π χ ι) (w : Writer π χ) : π → Option ℕ :=
  update (update d.dir w.final (some w.inode)) w.tmp none

theorem renamed_eq_some {w : Writer π χ} {p : π} {m : ℕ} (h : renamed d w p = some m) :
    p ≠ w.tmp ∧ ((p = w.final ∧ m = w.inode) ∨ (p ≠ w.final ∧ d.dir p = some m)) := by
  rcases dir_changed (d := { d with dir := update d.dir w.final (some w.inode) }) h with
    ⟨-, hm⟩ | ⟨hne, hp⟩
  · cases hm
  · refine ⟨hne, ?_⟩
    rcases dir_changed hp with ⟨hfinal, hm⟩ | ⟨hne', hp'⟩
    · exact .inl ⟨hfinal, (Option.some.inj hm).symm⟩
    · exact .inr ⟨hne', hp'⟩

end

/-! ## The disk -/

variable [DecidableEq π] [DecidableEq ι]

def Disk.create (d : Disk π χ ι) (id : ι) (tmp final : π) (text : List χ) : Disk π χ ι :=
  let n := (d.dir tmp).getD d.fresh
  { dir := update d.dir tmp (some n)
    data := update d.data n []
    fresh := max d.fresh (n + 1)
    writers := update d.writers id (some ⟨tmp, final, text, n, 0⟩) }

/-- A rename of what has the temporary name, once all is written; without that name it fails. -/
def Disk.rename (d : Disk π χ ι) (id : ι) : Disk π χ ι :=
  match d.done id with
  | none => d
  | some w =>
    { d with
      dir := match d.dir w.tmp with
        | some n => update (update d.dir w.final (some n)) w.tmp none
        | none => d.dir
      writers := update d.writers id none }

def Disk.fail (d : Disk π χ ι) (id : ι) (unlinked : Bool) : Disk π χ ι :=
  match d.writers id with
  | none => d
  | some w =>
    { d with
      dir := if unlinked then update d.dir w.tmp none else d.dir
      writers := update d.writers id none }

def Disk.step (d : Disk π χ ι) : Event π χ ι → Disk π χ ι
  | .create id tmp final text => d.create id tmp final text
  | .write id n => d.write id n
  | .rename id => d.rename id
  | .fail id unlinked => d.fail id unlinked
  | .die id => { d with writers := update d.writers id none }

/-- The store that the names stand for: a commit replaces a text at once. -/
def commit (saved : π → Option (List χ)) : Option (π × List χ) → π → Option (List χ)
  | some (p, text) => update saved p (some text)
  | none => saved

def savedBy : Disk π χ ι → List (Event π χ ι) → (π → Option (List χ)) → π → Option (List χ)
  | _, [], saved => saved
  | d, e :: events, saved => savedBy (d.step e) events (commit saved (committed d e))

theorem savedBy_concat (d : Disk π χ ι) (events : List (Event π χ ι)) (e : Event π χ ι)
    (saved : π → Option (List χ)) :
    savedBy d (events ++ [e]) saved =
      commit (savedBy d events saved) (committed (run Disk.step d events) e) := by
  induction events generalizing d saved with
  | nil => rfl
  | cons e' events ih => exact ih (d.step e') _

/-! ## One event -/

theorem sound_create (h : Sound isTmp d) {tmp final : π} {text : List χ}
    (he : Exclusive isTmp d (.create id tmp final text)) :
    Sound isTmp (d.create id tmp final text) := by
  obtain ⟨-, htmp, hfinal, hothers⟩ := he
  have hn : ∀ {p}, d.dir p = some ((d.dir tmp).getD d.fresh) → p = tmp := eq_of_dir_opened h
  rw [Disk.create]
  constructor
  · intro p q m hp hq
    rcases dir_changed hp with ⟨rfl, hm⟩ | ⟨-, hp'⟩
    · rcases dir_changed hq with ⟨rfl, -⟩ | ⟨-, hq'⟩
      · rfl
      · exact (hn (hq'.trans hm.symm)).symm
    · rcases dir_changed hq with ⟨rfl, hm⟩ | ⟨-, hq'⟩
      · exact hn (hp'.trans hm.symm)
      · exact h.inj hp' hq'
  · intro p m hp
    rcases dir_changed hp with ⟨rfl, hm⟩ | ⟨-, hp⟩
    · rw [← Option.some.inj hm]
      exact Nat.lt_of_lt_of_le (Nat.lt_succ_self _) (Nat.le_max_right _ _)
    · exact Nat.lt_of_lt_of_le (h.fresh hp) (Nat.le_max_left _ _)
  · intro id' w hw
    rcases writers_changed hw with ⟨rfl, rfl⟩ | ⟨-, hw⟩
    · exact ⟨Function.update_self .., Function.update_self .., htmp, hfinal, Nat.zero_le _⟩
    · have hne : w.tmp ≠ tmp := hothers id' w hw
      have hinode : w.inode ≠ (d.dir tmp).getD d.fresh := fun e =>
        hne (hn (e ▸ (h.writer hw).dir))
      exact (h.writer hw).of_eq (Function.update_of_ne hne ..) (Function.update_of_ne hinode ..)
  · intro id₁ id₂ w₁ w₂ h₁ h₂ heq
    rcases writers_changed h₁ with ⟨rfl, rfl⟩ | ⟨-, h₁'⟩
    · rcases writers_changed h₂ with ⟨rfl, rfl⟩ | ⟨-, h₂'⟩
      · rfl
      · exact absurd heq.symm (hothers id₂ w₂ h₂')
    · rcases writers_changed h₂ with ⟨rfl, rfl⟩ | ⟨-, h₂'⟩
      · exact absurd heq (hothers id₁ w₁ h₁')
      · exact h.own h₁' h₂' heq

/-- **A writer that leaves** takes at most its temporary name with it. -/
theorem sound_leave (h : Sound isTmp d) (unlinked : Bool) : Sound isTmp (d.fail id unlinked) := by
  rw [Disk.fail]
  cases hw : d.writers id with
  | none => exact h
  | some w =>
    have hdir : ∀ {p m}, (if unlinked then update d.dir w.tmp none else d.dir) p = some m →
        d.dir p = some m := by
      intro p m hp
      split_ifs at hp
      · rcases dir_changed hp with ⟨-, hm⟩ | ⟨-, hp'⟩
        · cases hm
        · exact hp'
      · exact hp
    refine ⟨fun hp hq => h.inj (hdir hp) (hdir hq), fun hp => h.fresh (hdir hp),
      fun {id' w'} hw' => ?_, fun h₁ h₂ heq => ?_⟩
    · obtain ⟨hne, hw'⟩ := writers_erased hw'
      refine (h.writer hw').of_eq ?_ rfl
      change (if unlinked then update d.dir w.tmp none else d.dir) w'.tmp = d.dir w'.tmp
      split_ifs
      · exact Function.update_of_ne (inode_ne h hw hw' hne).2 ..
      · rfl
    · exact h.own (writers_erased h₁).2 (writers_erased h₂).2 heq

theorem sound_die (h : Sound isTmp d) : Sound isTmp (d.step (.die id)) where
  inj := h.inj
  fresh := h.fresh
  writer hw := (h.writer (writers_erased hw).2).of_eq rfl rfl
  own h₁ h₂ heq := h.own (writers_erased h₁).2 (writers_erased h₂).2 heq

theorem rename_of_done (h : Sound isTmp d) {w : Writer π χ} (hw : d.done id = some w) :
    d.rename id = { d with dir := renamed d w, writers := update d.writers id none } := by
  rw [Disk.rename, hw]
  dsimp only
  rw [(h.writer (done_eq_some hw).1).dir]
  rfl

theorem sound_rename (h : Sound isTmp d) : Sound isTmp (d.rename id) := by
  cases hdone : d.done id with
  | none =>
    rw [Disk.rename, hdone]
    exact h
  | some w =>
    obtain ⟨hw, -⟩ := done_eq_some hdone
    have hs := h.writer hw
    rw [rename_of_done h hdone]
    refine ⟨fun {p q m} hp hq => ?_, fun {p m} hp => ?_, fun {id' w'} hw' => ?_,
      fun h₁ h₂ heq => h.own (writers_erased h₁).2 (writers_erased h₂).2 heq⟩
    · obtain ⟨hptmp, ⟨rfl, rfl⟩ | ⟨hpfinal, hp'⟩⟩ := renamed_eq_some hp
      · obtain ⟨hqtmp, ⟨rfl, -⟩ | ⟨-, hq'⟩⟩ := renamed_eq_some hq
        · rfl
        · exact absurd (h.inj hq' hs.dir) hqtmp
      · obtain ⟨hqtmp, ⟨rfl, rfl⟩ | ⟨-, hq'⟩⟩ := renamed_eq_some hq
        · exact absurd (h.inj hp' hs.dir) hptmp
        · exact h.inj hp' hq'
    · obtain ⟨-, ⟨-, rfl⟩ | ⟨-, hp'⟩⟩ := renamed_eq_some hp
      · exact h.fresh hs.dir
      · exact h.fresh hp'
    · obtain ⟨hne, hw'⟩ := writers_erased hw'
      have hs' := h.writer hw'
      have hfinal : w'.tmp ≠ w.final := fun e => hs.final (e ▸ hs'.tmp)
      refine hs'.of_eq ?_ rfl
      exact (Function.update_of_ne (inode_ne h hw hw' hne).2 ..).trans
        (Function.update_of_ne hfinal ..)

/-- **Every event keeps the disk sound.** -/
theorem sound_step (d : Disk π χ ι) (e : Event π χ ι) (h : Sound isTmp d)
    (he : Exclusive isTmp d e) : Sound isTmp (d.step e) := by
  cases e with
  | create id tmp final text => exact sound_create h he
  | write id n => exact sound_write h n
  | rename id => exact sound_rename h
  | fail id unlinked => exact sound_leave h unlinked
  | die id => exact sound_die h

/-! ## What is read -/

/-- **One event and what is read**: a commit replaces a text at once, and nothing else does. -/
theorem read_step (h : Sound isTmp d) {e : Event π χ ι} (he : Exclusive isTmp d e) {p : π}
    (hp : ¬ isTmp p) : (d.step e).read p = commit d.read (committed d e) p := by
  have hne : ∀ {tmp}, isTmp tmp → p ≠ tmp := by
    rintro _ htmp rfl
    exact hp htmp
  cases e with
  | create id tmp final text =>
    refine read_of_eq (Function.update_of_ne (hne he.2.1) ..) fun n hn => ?_
    refine Function.update_of_ne ?_ ..
    rintro rfl
    exact hne he.2.1 (eq_of_dir_opened h hn)
  | write id n =>
    change (d.write id n).read p = d.read p
    rw [Disk.write]
    cases hw : d.writers id with
    | none => rfl
    | some w =>
      refine read_of_eq rfl fun m hm => Function.update_of_ne ?_ ..
      rintro rfl
      exact hne (h.writer hw).tmp (h.inj hm (h.writer hw).dir)
  | rename id =>
    change (d.rename id).read p = commit d.read (committed d (.rename id)) p
    cases hdone : d.done id with
    | none => rw [Disk.rename, committed, hdone, commit]
    | some w =>
      obtain ⟨hw, hlen⟩ := done_eq_some hdone
      have hs := h.writer hw
      have hcommitted : committed d (.rename id) = some (w.final, w.text) := by
        rw [committed, hdone]
        dsimp only
        rw [hs.dir]
        rfl
      rw [rename_of_done h hdone, hcommitted, commit]
      have hdir : renamed d w p = update d.dir w.final (some w.inode) p :=
        Function.update_of_ne (hne hs.tmp) ..
      by_cases hfinal : p = w.final
      · rw [hfinal, Function.update_self] at hdir ⊢
        rw [Disk.read]
        dsimp only
        rw [hdir, Option.map_some, hs.data, hlen, List.take_length]
      · rw [Function.update_of_ne hfinal] at hdir ⊢
        exact read_of_eq hdir fun _ _ => rfl
  | fail id unlinked =>
    change (d.fail id unlinked).read p = d.read p
    rw [Disk.fail]
    cases hw : d.writers id with
    | none => rfl
    | some w =>
      refine read_of_eq ?_ fun _ _ => rfl
      change (if unlinked then update d.dir w.tmp none else d.dir) p = d.dir p
      split_ifs
      · exact Function.update_of_ne (hne (h.writer hw).tmp) ..
      · rfl
  | die id => rfl

theorem sound_run {events : List (Event π χ ι)}
    (h : AllAllowed Disk.step (Exclusive isTmp) Disk.empty events) :
    Sound isTmp (run Disk.step Disk.empty events) :=
  run_invariant sound_empty sound_step h

/-- **The disk refines the store of commits**: under a name that is not temporary, the text that
was committed to it last is read, whole, and nothing before there is one. -/
theorem refines {events : List (Event π χ ι)}
    (h : AllAllowed Disk.step (Exclusive isTmp) Disk.empty events) {p : π} (hp : ¬ isTmp p) :
    (run Disk.step Disk.empty events).read p = savedBy Disk.empty events (fun _ => none) p := by
  induction events using List.reverseRecOn generalizing p with
  | nil => rfl
  | append_singleton events e ih =>
    have hbefore := h.before (List.prefix_append events [e])
    rw [run_concat, savedBy_concat,
      read_step (sound_run hbefore) (h events e (List.prefix_refl _)) hp]
    cases hc : committed (run Disk.step Disk.empty events) e with
    | none => exact ih hbefore hp
    | some c =>
      obtain ⟨q, text⟩ := c
      rw [commit, commit]
      by_cases hq : p = q
      · rw [hq, Function.update_self, Function.update_self]
      · rw [Function.update_of_ne hq, Function.update_of_ne hq]
        exact ih hbefore hp

/-- Two writers with one temporary name: the first one's rename commits what the second has begun. -/
example :
    let events : List (Event ℕ ℕ ℕ) :=
      [.create 0 1 0 [7, 8], .write 0 2, .create 1 1 0 [9], .rename 0]
    (run Disk.step Disk.empty events).read 0 = some [] ∧
      savedBy Disk.empty events (fun _ => none) 0 = some [7, 8] := by
  decide

/-- Two writers of one temporary name: what is read is the text of neither. -/
example : (run Disk.step (Disk.empty : Disk ℕ ℕ ℕ) [.create 0 1 2 [5, 5], .write 0 2,
    .create 1 1 2 [6, 6], .write 1 1, .rename 0]).read 2 = some [6] := by decide

/-- Nothing is committed to the name in the course of `later`, after `events`. -/
def Untouched (p : π) (events later : List (Event π χ ι)) : Prop :=
  ∀ mid e rest text, later = mid ++ e :: rest →
    committed (run Disk.step Disk.empty (events ++ mid)) e ≠ some (p, text)

theorem Untouched.concat {p : π} {events later : List (Event π χ ι)} {e : Event π χ ι}
    (h : Untouched p events later)
    (he : ∀ text, committed (run Disk.step Disk.empty (events ++ later)) e ≠ some (p, text)) :
    Untouched p events (later ++ [e]) := by
  intro mid e' rest text hlater
  rcases List.eq_nil_or_concat rest with rfl | ⟨rest', e'', rfl⟩
  · obtain ⟨rfl, hlast⟩ := List.append_inj' hlater rfl
    obtain rfl : e = e' := List.head_eq_of_cons_eq hlast
    exact he text
  · have hcut : later ++ [e] = (mid ++ e' :: rest') ++ [e''] := by
      rw [hlater]
      simp
    obtain ⟨rfl, -⟩ := List.append_inj' hcut rfl
    exact h mid e' rest' text rfl

/-- **What is saved**: the last text that was committed, if there is one. -/
theorem savedBy_cases (events : List (Event π χ ι)) (p : π) :
    (savedBy Disk.empty events (fun _ => none) p = none ∧ Untouched p [] events) ∨
      ∃ before e after text, events = before ++ e :: after ∧
        committed (run Disk.step Disk.empty before) e = some (p, text) ∧
        Untouched p (before ++ [e]) after ∧
        savedBy Disk.empty events (fun _ => none) p = some text := by
  induction events using List.reverseRecOn with
  | nil =>
    refine .inl ⟨rfl, fun mid e rest text hlater => ?_⟩
    cases mid <;> cases hlater
  | append_singleton events e ih =>
    rw [savedBy_concat]
    by_cases hc : ∃ text, committed (run Disk.step Disk.empty events) e = some (p, text)
    · obtain ⟨text, hc⟩ := hc
      refine .inr ⟨events, e, [], text, rfl, hc, fun mid e' rest text' hlater => ?_, ?_⟩
      · cases mid <;> cases hlater
      · rw [hc, commit, Function.update_self]
    · have hkeep : ∀ saved : π → Option (List χ),
          commit saved (committed (run Disk.step Disk.empty events) e) p = saved p := by
        intro saved
        cases hcommitted : committed (run Disk.step Disk.empty events) e with
        | none => rfl
        | some c =>
          obtain ⟨q, text⟩ := c
          have hq : p ≠ q := by
            rintro rfl
            exact hc ⟨text, hcommitted⟩
          exact Function.update_of_ne hq ..
      have hne : ∀ text, committed (run Disk.step Disk.empty events) e ≠ some (p, text) :=
        fun text h => hc ⟨text, h⟩
      rw [hkeep]
      rcases ih with ⟨hnone, huntouched⟩ | ⟨before, e', after, text, rfl, he', hafter, hsome⟩
      · exact .inl ⟨hnone, huntouched.concat hne⟩
      · refine .inr ⟨before, e', after ++ [e], text, by simp, he', hafter.concat ?_, hsome⟩
        rw [List.append_assoc]
        exact hne

/-! ## Texts -/

/-- Writers write what `Q` says, under their names. -/
def Writes (Q : π → List χ → Prop) : Event π χ ι → Prop
  | .create _ _ final text => Q final text
  | _ => True

theorem writes_step {Q : π → List χ → Prop} (h : ∀ id w, d.writers id = some w → Q w.final w.text)
    {e : Event π χ ι} (he : Writes Q e) :
    ∀ id w, (d.step e).writers id = some w → Q w.final w.text := by
  intro id' w' hw'
  cases e with
  | create id tmp final text =>
    rcases writers_changed hw' with ⟨-, rfl⟩ | ⟨-, hw'⟩
    · exact he
    · exact h id' w' hw'
  | write id n =>
    rw [Disk.step, Disk.write] at hw'
    cases hw : d.writers id with
    | none =>
      rw [hw] at hw'
      exact h id' w' hw'
    | some w =>
      rw [hw] at hw'
      rcases writers_changed hw' with ⟨-, rfl⟩ | ⟨-, hw'⟩
      · exact h id w hw
      · exact h id' w' hw'
  | rename id =>
    rw [Disk.step, Disk.rename] at hw'
    cases hdone : d.done id with
    | none =>
      rw [hdone] at hw'
      exact h id' w' hw'
    | some w =>
      rw [hdone] at hw'
      exact h id' w' (writers_erased hw').2
  | fail id unlinked =>
    rw [Disk.step, Disk.fail] at hw'
    cases hw : d.writers id with
    | none =>
      rw [hw] at hw'
      exact h id' w' hw'
    | some w =>
      rw [hw] at hw'
      exact h id' w' (writers_erased hw').2
  | die id => exact h id' w' (writers_erased hw').2

/-- **A text that is committed** is one that was to be written. -/
theorem committed_writes {Q : π → List χ → Prop} {events : List (Event π χ ι)}
    (h : ∀ e ∈ events, Writes Q e) {e : Event π χ ι} {p : π} {text : List χ}
    (hc : committed (run Disk.step Disk.empty events) e = some (p, text)) : Q p text := by
  have hwriters : ∀ id w, (run Disk.step Disk.empty events).writers id = some w →
      Q w.final w.text := by
    clear hc
    induction events using List.reverseRecOn with
    | nil =>
      intro id w hw
      cases hw
    | append_singleton events e ih =>
      rw [run_concat]
      exact writes_step (ih fun e' he' => h e' (List.mem_append_left _ he'))
        (h e (List.mem_append_right _ (List.mem_singleton_self e)))
  cases e with
  | rename id =>
    rw [committed] at hc
    cases hdone : (run Disk.step Disk.empty events).done id with
    | none =>
      rw [hdone] at hc
      cases hc
    | some w =>
      rw [hdone] at hc
      dsimp only at hc
      split_ifs at hc
      obtain ⟨rfl, rfl⟩ := Prod.mk.inj (Option.some.inj hc)
      exact hwriters id w (done_eq_some hdone).1
  | create id tmp final text => cases hc
  | write id n => cases hc
  | fail id unlinked => cases hc
  | die id => cases hc

/-! ## Open files -/

/-- An inode that has no temporary name. -/
def Kept (isTmp : π → Prop) (n : ℕ) (d : Disk π χ ι) : Prop :=
  n < d.fresh ∧ ∀ p, isTmp p → d.dir p ≠ some n

theorem kept_step {n : ℕ} (h : Sound isTmp d) {e : Event π χ ι} (he : Exclusive isTmp d e)
    (hn : Kept isTmp n d) : Kept isTmp n (d.step e) ∧ (d.step e).data n = d.data n := by
  cases e with
  | create id tmp final text =>
    have hne : n ≠ (d.dir tmp).getD d.fresh := by
      cases htmp : d.dir tmp with
      | some m =>
        rintro rfl
        exact hn.2 tmp he.2.1 htmp
      | none => exact Nat.ne_of_lt hn.1
    refine ⟨⟨Nat.lt_of_lt_of_le hn.1 (Nat.le_max_left _ _), fun p hp hdir => ?_⟩,
      Function.update_of_ne hne ..⟩
    rcases dir_changed hdir with ⟨-, hm⟩ | ⟨-, hp'⟩
    · exact hne (Option.some.inj hm).symm
    · exact hn.2 p hp hp'
  | write id k =>
    change Kept isTmp n (d.write id k) ∧ (d.write id k).data n = d.data n
    rw [Disk.write]
    cases hw : d.writers id with
    | none => exact ⟨hn, rfl⟩
    | some w =>
      refine ⟨hn, Function.update_of_ne ?_ ..⟩
      rintro rfl
      exact hn.2 w.tmp (h.writer hw).tmp (h.writer hw).dir
  | rename id =>
    change Kept isTmp n (d.rename id) ∧ (d.rename id).data n = d.data n
    cases hdone : d.done id with
    | none =>
      rw [Disk.rename, hdone]
      exact ⟨hn, rfl⟩
    | some w =>
      rw [rename_of_done h hdone]
      refine ⟨⟨hn.1, fun p hp hdir => ?_⟩, rfl⟩
      obtain ⟨-, ⟨rfl, -⟩ | ⟨-, hp'⟩⟩ := renamed_eq_some hdir
      · exact (h.writer (done_eq_some hdone).1).final hp
      · exact hn.2 p hp hp'
  | fail id unlinked =>
    change Kept isTmp n (d.fail id unlinked) ∧ (d.fail id unlinked).data n = d.data n
    rw [Disk.fail]
    cases hw : d.writers id with
    | none => exact ⟨hn, rfl⟩
    | some w =>
      refine ⟨⟨hn.1, fun p hp hdir => ?_⟩, rfl⟩
      split_ifs at hdir
      · rcases dir_changed hdir with ⟨-, hm⟩ | ⟨-, hp'⟩
        · cases hm
        · exact hn.2 p hp hp'
      · exact hn.2 p hp hdir
  | die id => exact ⟨hn, rfl⟩

/-- **A file that is open stays as it is**, whatever becomes of its name: what is read from it
later is what it held when it was opened. -/
theorem data_stable {events later : List (Event π χ ι)}
    (h : AllAllowed Disk.step (Exclusive isTmp) Disk.empty (events ++ later)) {p : π}
    (hp : ¬ isTmp p) {n : ℕ} (hn : (run Disk.step Disk.empty events).dir p = some n) :
    (run Disk.step Disk.empty (events ++ later)).data n =
      (run Disk.step Disk.empty events).data n := by
  have hsound := sound_run (h.before (List.prefix_append _ _))
  have hkept : Kept isTmp n (run Disk.step Disk.empty events) := by
    refine ⟨hsound.fresh hn, fun q hq hdir => hp ?_⟩
    rw [hsound.inj hn hdir]
    exact hq
  have hrun : Kept isTmp n (run Disk.step Disk.empty (events ++ later)) ∧
      (run Disk.step Disk.empty (events ++ later)).data n =
        (run Disk.step Disk.empty events).data n := by
    induction later using List.reverseRecOn with
    | nil =>
      rw [List.append_nil]
      exact ⟨hkept, rfl⟩
    | append_singleton later e ih =>
      rw [← List.append_assoc] at h ⊢
      have hbefore := h.before (List.prefix_append (events ++ later) [e])
      obtain ⟨hk, hdata⟩ := ih hbefore
      obtain ⟨hk', hdata'⟩ := kept_step (sound_run hbefore) (h _ e (List.prefix_refl _)) hk
      rw [run_concat]
      exact ⟨hk', hdata'.trans hdata⟩
  exact hrun.2

end BoingObserver.AtomicFile
