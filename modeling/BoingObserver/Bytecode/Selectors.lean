import BoingObserver.Bytecode.Disassemble
import BoingObserver.Js.Map
import Mathlib.Data.List.Infix
import Mathlib.Data.List.Sort
import Mathlib.Tactic.IntervalCases

/-!
# Dispatch selectors

`decodeDispatchSelectors` of `bytecode-selectors.ts`: the selectors that dispatch code
compares the selector slot with.

* `mem_selSlots_iff`: the slots that count are zero and those the selector is saved to.
* `scan_part`: each part of dispatch code gives its own selectors.
* `decodeDispatchSelectors_exact`: the selectors that are found are those compared with.
-/

namespace BoingObserver.Bytecode

open Js

/-! ## Finding selectors -/

/-- `isPush(i)`, with the argument. -/
def pushArg (i : Option Op) : Option (List UInt8) :=
  match i with
  | some ⟨op, some arg⟩ => if isPushOp op then some arg else none
  | _ => none

def isOp (op : UInt8) (i : Option Op) : Bool := i.any (·.op = op)

/-- The slot that is saved to at the head of `ins`: `PUSH 0 MLOAD [PUSH 0xff AND] PUSH s MSTORE`. -/
def savedSlot (ins : List Op) : Option Text :=
  if (pushArg ins[0]?).any (bigValue · = "0") && isOp opMload ins[1]? then
    let masked := (pushArg ins[2]?).any (byteValue · = some 255) && isOp opAnd ins[3]?
    let j := if masked then 4 else 2
    if isOp opMstore ins[j + 1]? then (pushArg ins[j]?).map bigValue else none
  else none

/-- Memory slots that hold the selector. -/
def selSlots (ins : List Op) : List Text := "0" :: ins.tails.filterMap savedSlot

def loadsSel (slots : List Text) (load slot : Option Op) : Bool :=
  isOp opMload load && (pushArg slot).any (bigValue · ∈ slots)

/-- `[ISZERO] PUSH JUMPI` -/
def isJump (ins : List Op) : Bool :=
  let j := if isOp opIszero ins[0]? then 1 else 0
  (pushArg ins[j]?).isSome && isOp opJumpi ins[j + 1]?

/-- The selector in `<sel load> PUSH v` or `PUSH v <sel load>`, nearest instruction first. -/
def comparedWith (slots : List Text) (before : List Op) : Option ℕ :=
  if (pushArg before[0]?).isSome && loadsSel slots before[1]? before[2]? then
    (pushArg before[0]?).bind byteValue
  else if loadsSel slots before[0]? before[1]? then (pushArg before[2]?).bind byteValue
  else none

/-- The selector found at an `EQ`, between the instructions before and after it. -/
def foundAt (slots : List Text) (before after : List Op) : Option ℕ :=
  if isJump after then comparedWith slots before else none

def scan (slots : List Text) : List Op → List Op → List ℕ
  | _, [] => []
  | before, i :: after =>
    (if i.op = opEq then (foundAt slots before after).toList else []) ++
      scan slots (i :: before) after

/-- `[...new Set(l)].sort((a, b) => a - b)` -/
def sortedDistinct (l : List ℕ) : List ℕ := l.eraseDups.insertionSort (· ≤ ·)

def decodeDispatchSelectors (code : List UInt8) : List ℕ :=
  let ins := (disassemble code).map Instr.toOp
  sortedDistinct (scan (selSlots ins) [] ins)

/-! ## Dispatch code -/

namespace Instruction

def mload : Instruction := .plain opMload (by decide)

def mstore : Instruction := .plain opMstore (by decide)

def and : Instruction := .plain opAnd (by decide)

def eq : Instruction := .plain opEq (by decide)

def iszero : Instruction := .plain opIszero (by decide)

def jumpi : Instruction := .plain opJumpi (by decide)

end Instruction

/-- What a loaded value is compared with: what is on the stack, a constant, another slot. -/
inductive Operand
  | stack
  | const (p : Push)
  | load (p : Push)

def Operand.instrs : Operand → List Instruction
  | .stack => []
  | .const p => [.push p]
  | .load p => [.push p, .mload]

def jump (isZero : Bool) (dest : Push) : List Instruction :=
  (if isZero then [.iszero] else []) ++ [.push dest, .jumpi]

/-- The parts that dispatch code is made of. -/
inductive Part
  | save (zero : Push) (mask : Option Push) (slot : Push)
  /-- A comparison of the selector, as the first or as the second operand, and a jump. -/
  | compare (slot v : Push) (flipped isZero : Bool) (dest : Push)
  | other (i : Instruction)
  /-- An `EQ` of what a slot holds, or of a computed value. -/
  | equal (slot : Push) (operand : Operand)
  | computed (op : UInt8) (h : isPushOp op = false)

namespace Part

def instrs : Part → List Instruction
  | .save zero none slot => [.push zero, .mload, .push slot, .mstore]
  | .save zero (some mask) slot => [.push zero, .mload, .push mask, .and, .push slot, .mstore]
  | .compare slot v flipped isZero dest =>
    (if flipped then [.push v, .push slot, .mload] else [.push slot, .mload, .push v]) ++
      .eq :: jump isZero dest
  | .other i => [i]
  | .equal slot operand => .push slot :: .mload :: (operand.instrs ++ [.eq])
  | .computed op h => [.plain op h, .eq]

def selectors : Part → List ℕ
  | .compare _ v _ _ _ => [value v.arg]
  | _ => []

end Part

/-- The selector is saved to the slot `s` somewhere in the code. -/
def Saved (is : List Instruction) (s : ℕ) : Prop :=
  ∃ zero mask slot, value zero.arg = 0 ∧ (∀ m ∈ mask, value (Push.arg m) = 255) ∧
    value slot.arg = s ∧ (Part.save zero mask slot).instrs <:+: is

/-- The parts as they may occur in code whose saves are to `saved`. -/
def Part.WellFormed (saved : ℕ → Prop) : Part → Prop
  | .save zero mask _ => value zero.arg = 0 ∧ ∀ m ∈ mask, value (Push.arg m) = 255
  | .compare slot v _ _ _ => (value slot.arg = 0 ∨ saved (value slot.arg)) ∧ value v.arg < 256
  | .other i => i.op.op ≠ opEq
  | .equal slot _ => value slot.arg ≠ 0 ∧ ¬ saved (value slot.arg)
  | .computed op _ => op ≠ opMload ∧ op ≠ opEq

/-! ## Reading whole instructions -/

@[simp] theorem pushArg_push (p : Push) : pushArg (some (Instruction.push p).op) = some p.arg :=
  if_pos (isPushOp_op p)

@[simp] theorem pushArg_plain (op : UInt8) (h : isPushOp op = false) :
    pushArg (some (Instruction.plain op h).op) = none :=
  rfl

@[simp] theorem isOp_plain (b op : UInt8) (h : isPushOp op = false) :
    isOp b (some (Instruction.plain op h).op) = decide (op = b) :=
  rfl

theorem isOp_push (p : Push) {b : UInt8} (hb : isPushOp b = false) :
    isOp b (some (Instruction.push p).op) = false :=
  decide_eq_false (op_push_ne p hb)

theorem pushArg_getElem?_eq_some {is : List Instruction} {k : ℕ} {arg : List UInt8} :
    pushArg (is.map Instruction.op)[k]? = some arg ↔ ∃ p : Push, is[k]? = some (.push p) ∧ p.arg = arg := by
  rw [List.getElem?_map]
  cases is[k]? with
  | none => simp [pushArg]
  | some i =>
    cases i with
    | push p => simp
    | plain op h => simp

theorem isOp_getElem? {is : List Instruction} {k : ℕ} {b : UInt8} (hb : isPushOp b = false) :
    isOp b (is.map Instruction.op)[k]? = true ↔ is[k]? = some (.plain b hb) := by
  rw [List.getElem?_map]
  cases is[k]? with
  | none => simp [isOp]
  | some i =>
    cases i with
    | push p => simp [isOp_push p hb]
    | plain op h => simp

/-! ## Saved slots -/

theorem byteValue_eq_255 {p : Push} : byteValue p.arg = some 255 ↔ value p.arg = 255 := by
  rw [byteValue_eq_some p.ne_nil]
  omega

theorem exists_of_store {is : List Instruction} {j : ℕ} {t : Text}
    (h : (if isOp opMstore (is.map Instruction.op)[j + 1]? then
      (pushArg (is.map Instruction.op)[j]?).map bigValue else none) = some t) :
    ∃ slot : Push, is[j]? = some (.push slot) ∧ is[j + 1]? = some .mstore ∧ bigValue slot.arg = t := by
  split at h
  next hstore =>
    obtain ⟨_, hpush, rfl⟩ := Option.map_eq_some_iff.mp h
    obtain ⟨slot, hslot, rfl⟩ := pushArg_getElem?_eq_some.mp hpush
    exact ⟨slot, hslot, (isOp_getElem? (by decide)).mp hstore, rfl⟩
  next => cases h

theorem exists_of_pushArg_any {is : List Instruction} {k : ℕ} {b : UInt8} (hb : isPushOp b = false)
    {f : List UInt8 → Bool}
    (h : ((pushArg (is.map Instruction.op)[k]?).any f && isOp b (is.map Instruction.op)[k + 1]?) = true) :
    ∃ p : Push, is[k]? = some (.push p) ∧ f p.arg = true ∧ is[k + 1]? = some (.plain b hb) := by
  rw [Bool.and_eq_true, isOp_getElem? hb, Option.any_eq_true] at h
  obtain ⟨⟨_, hpush, hf⟩, hop⟩ := h
  obtain ⟨p, hp, rfl⟩ := pushArg_getElem?_eq_some.mp hpush
  exact ⟨p, hp, hf, hop⟩

theorem prefix_of_savedSlot {is : List Instruction} {t : Text}
    (h : savedSlot (is.map Instruction.op) = some t) :
    ∃ zero mask slot, value (Push.arg zero) = 0 ∧ (∀ m ∈ mask, value (Push.arg m) = 255) ∧
      bigValue (Push.arg slot) = t ∧ (Part.save zero mask slot).instrs <+: is := by
  unfold savedSlot at h
  by_cases hload : ((pushArg (is.map Instruction.op)[0]?).any (bigValue · = "0") &&
      isOp opMload (is.map Instruction.op)[1]?) = true
  · rw [if_pos hload] at h
    obtain ⟨zero, h₀, hz, h₁⟩ := exists_of_pushArg_any (by decide) hload
    have hz := bigValue_eq_zero_iff.mp (of_decide_eq_true hz)
    by_cases hmasked : ((pushArg (is.map Instruction.op)[2]?).any (byteValue · = some 255) &&
        isOp opAnd (is.map Instruction.op)[3]?) = true
    · simp only [hmasked, if_true] at h
      obtain ⟨mask, h₂, hm, h₃⟩ := exists_of_pushArg_any (by decide) hmasked
      have hm := byteValue_eq_255.mp (of_decide_eq_true hm)
      obtain ⟨slot, h₄, h₅, hslot⟩ := exists_of_store h
      refine ⟨zero, some mask, slot, hz, fun _ h => Option.some.inj h ▸ hm, hslot, ?_⟩
      rw [List.prefix_iff_getElem?]
      intro i hi
      change i < 6 at hi
      interval_cases i <;> assumption
    · simp only [hmasked, Bool.false_eq_true, if_false] at h
      obtain ⟨slot, h₂, h₃, hslot⟩ := exists_of_store h
      refine ⟨zero, none, slot, hz, (fun _ h => nomatch h), hslot, ?_⟩
      rw [List.prefix_iff_getElem?]
      intro i hi
      change i < 4 at hi
      interval_cases i <;> assumption
  · rw [if_neg hload] at h
    cases h

theorem savedSlot_of_save {is : List Instruction} {zero slot : Push} {mask : Option Push}
    (hzero : value zero.arg = 0) (hmask : ∀ m ∈ mask, value (Push.arg m) = 255)
    (h : (Part.save zero mask slot).instrs <+: is) :
    savedSlot (is.map Instruction.op) = some (bigValue slot.arg) := by
  obtain ⟨rest, rfl⟩ := h
  have hz : bigValue zero.arg = "0" := bigValue_eq_zero_iff.mpr hzero
  cases mask with
  | none =>
    simp [savedSlot, Part.instrs, Instruction.mload, Instruction.mstore, hz, opMstore, opAnd]
  | some m =>
    have hm := byteValue_eq_255.mpr (hmask m rfl)
    simp [savedSlot, Part.instrs, Instruction.mload, Instruction.mstore, Instruction.and, hz, hm]

/-- **The slots that count** are zero and those the selector is saved to. -/
theorem mem_selSlots_iff {is : List Instruction} {p : Push} :
    bigValue p.arg ∈ selSlots (is.map Instruction.op) ↔ value p.arg = 0 ∨ Saved is (value p.arg) := by
  rw [selSlots, List.mem_cons, bigValue_eq_zero_iff, List.mem_filterMap]
  refine or_congr_right ?_
  constructor
  · rintro ⟨ins, hins, hsaved⟩
    obtain ⟨tail, htail, rfl⟩ := List.suffix_map_iff.mp ((List.mem_tails _ _).mp hins)
    obtain ⟨zero, mask, slot, hzero, hmask, hslot, hpre⟩ := prefix_of_savedSlot hsaved
    exact ⟨zero, mask, slot, hzero, hmask, bigValue_eq_iff.mp hslot,
      hpre.isInfix.trans htail.isInfix⟩
  · rintro ⟨zero, mask, slot, hzero, hmask, hslot, hinf⟩
    obtain ⟨tail, hpre, hsuf⟩ := List.infix_iff_prefix_suffix.mp hinf
    refine ⟨tail.map Instruction.op, (List.mem_tails _ _).mpr (hsuf.map _), ?_⟩
    rw [savedSlot_of_save hzero hmask hpre, bigValue_eq_iff.mpr hslot]

/-! ## The scan -/

/-- Instructions that are no `EQ`. -/
def NoEq (is : List Instruction) : Prop := ∀ i ∈ is, i.op.op ≠ opEq

theorem noEq_nil : NoEq [] := List.forall_mem_nil _

theorem noEq_cons {i : Instruction} {is : List Instruction} (hi : i.op.op ≠ opEq) (h : NoEq is) :
    NoEq (i :: is) :=
  List.forall_mem_cons.mpr ⟨hi, h⟩

theorem push_op_ne_opEq (p : Push) : (Instruction.push p).op.op ≠ opEq := op_push_ne p (by decide)

variable {slots : List Text}

theorem scan_of_noEq {is : List Instruction} (h : NoEq is) (before rest : List Op) :
    scan slots before (is.map Instruction.op ++ rest) =
      scan slots ((is.map Instruction.op).reverse ++ before) rest := by
  induction is generalizing before with
  | nil => rfl
  | cons i is ih =>
    obtain ⟨hi, his⟩ := List.forall_mem_cons.mp h
    rw [List.map_cons, List.cons_append, scan, if_neg hi, List.nil_append, ih his,
      List.reverse_cons, List.append_assoc]
    rfl

theorem scan_of_eq {pre post : List Instruction} (hpre : NoEq pre) (hpost : NoEq post)
    (before rest : List Op) :
    scan slots before ((pre ++ Instruction.eq :: post).map Instruction.op ++ rest) =
      (foundAt slots ((pre.map Instruction.op).reverse ++ before)
        (post.map Instruction.op ++ rest)).toList ++
      scan slots (((pre ++ Instruction.eq :: post).map Instruction.op).reverse ++ before) rest := by
  have heq : Instruction.eq.op.op = opEq := rfl
  rw [List.map_append, List.append_assoc, scan_of_noEq hpre, List.map_cons, List.cons_append, scan,
    if_pos heq, scan_of_noEq hpost]
  simp only [List.reverse_append, List.reverse_cons, List.append_assoc, List.cons_append,
    List.nil_append]

theorem noEq_jump (isZero : Bool) (dest : Push) : NoEq (jump isZero dest) := by
  have htail : NoEq [.push dest, .jumpi] :=
    noEq_cons (push_op_ne_opEq dest) (noEq_cons (by decide) noEq_nil)
  cases isZero with
  | false => exact htail
  | true => exact noEq_cons (by decide) htail

theorem isJump_jump (isZero : Bool) (dest : Push) (rest : List Op) :
    isJump ((jump isZero dest).map Instruction.op ++ rest) = true := by
  cases isZero with
  | false =>
    have hz : isOp opIszero (some (Instruction.push dest).op) = false := isOp_push dest (by decide)
    simp [isJump, jump, Instruction.jumpi, hz]
  | true => simp [isJump, jump, Instruction.jumpi, Instruction.iszero]

theorem loadsSel_mload (slots : List Text) (p : Push) :
    loadsSel slots (some Instruction.mload.op) (some (Instruction.push p).op) =
      decide (bigValue p.arg ∈ slots) := by
  simp [loadsSel, Instruction.mload]

theorem loadsSel_push (slots : List Text) (p : Push) (slot : Option Op) :
    loadsSel slots (some (Instruction.push p).op) slot = false := by
  rw [loadsSel, isOp_push p (by decide), Bool.false_and]

theorem comparedWith_load_const (slot v : Push) (before : List Op) :
    comparedWith slots ((Instruction.push v).op :: Instruction.mload.op ::
      (Instruction.push slot).op :: before) =
        if bigValue slot.arg ∈ slots then byteValue v.arg else none := by
  have hload := loadsSel_mload slots slot
  have hpush := loadsSel_push slots v (some Instruction.mload.op)
  simp [comparedWith, hload, hpush]

theorem comparedWith_load (slot : Push) (before : List Op) :
    comparedWith slots (Instruction.mload.op :: (Instruction.push slot).op :: before) =
      if bigValue slot.arg ∈ slots then (pushArg before[0]?).bind byteValue else none := by
  have hload := loadsSel_mload slots slot
  have hplain : pushArg (some Instruction.mload.op) = none := pushArg_plain _ _
  simp [comparedWith, hload, hplain]

theorem comparedWith_computed {op : UInt8} (h : isPushOp op = false) (hne : op ≠ opMload)
    (before : List Op) :
    comparedWith slots ((Instruction.plain op h).op :: before) = none := by
  simp [comparedWith, loadsSel, hne]

/-! ## Parts -/

/-- **A comparison gives its selector.** -/
theorem scan_compare {pre : List Instruction} {v : ℕ} {before : List Op} (hpre : NoEq pre)
    (h : comparedWith slots ((pre.map Instruction.op).reverse ++ before) = some v) (isZero : Bool)
    (dest : Push) (rest : List Op) :
    scan slots before ((pre ++ Instruction.eq :: jump isZero dest).map Instruction.op ++ rest) =
      [v] ++ scan slots
        (((pre ++ Instruction.eq :: jump isZero dest).map Instruction.op).reverse ++ before) rest := by
  rw [scan_of_eq hpre (noEq_jump isZero dest), foundAt, if_pos (isJump_jump isZero dest rest), h]
  rfl

/-- **Any other `EQ` gives none.** -/
theorem scan_equal {pre : List Instruction} {before : List Op} (hpre : NoEq pre)
    (h : comparedWith slots ((pre.map Instruction.op).reverse ++ before) = none) (rest : List Op) :
    scan slots before ((pre ++ [Instruction.eq]).map Instruction.op ++ rest) =
      scan slots (((pre ++ [Instruction.eq]).map Instruction.op).reverse ++ before) rest := by
  rw [scan_of_eq hpre noEq_nil, foundAt, h, ite_self]
  rfl

/-- **Each part gives its own selectors**, whatever stands before and after it. -/
theorem scan_part {saved : ℕ → Prop}
    (hslots : ∀ q : Push, bigValue q.arg ∈ slots ↔ value q.arg = 0 ∨ saved (value q.arg))
    {p : Part} (hp : p.WellFormed saved) (before rest : List Op) :
    scan slots before (p.instrs.map Instruction.op ++ rest) =
      p.selectors ++ scan slots ((p.instrs.map Instruction.op).reverse ++ before) rest := by
  have hcons (q : Push) {is : List Instruction} (h : NoEq is) : NoEq (.push q :: .mload :: is) :=
    noEq_cons (push_op_ne_opEq q) (noEq_cons (by decide) h)
  cases p with
  | save zero mask slot =>
    refine scan_of_noEq ?_ before rest
    have htail : NoEq [.push slot, .mstore] :=
      noEq_cons (push_op_ne_opEq slot) (noEq_cons (by decide) noEq_nil)
    cases mask with
    | none => exact hcons zero htail
    | some m => exact hcons zero (noEq_cons (push_op_ne_opEq m) (noEq_cons (by decide) htail))
  | compare slot v flipped isZero dest =>
    obtain ⟨hslot, hv⟩ := hp
    have hmem : bigValue slot.arg ∈ slots := (hslots slot).mpr hslot
    have hbyte : byteValue v.arg = some (value v.arg) := (byteValue_eq_some v.ne_nil).mpr ⟨rfl, hv⟩
    cases flipped with
    | false =>
      refine scan_compare (hcons slot (noEq_cons (push_op_ne_opEq v) noEq_nil)) ?_ isZero dest rest
      exact (comparedWith_load_const slot v before).trans ((if_pos hmem).trans hbyte)
    | true =>
      refine scan_compare (noEq_cons (push_op_ne_opEq v) (hcons slot noEq_nil)) ?_ isZero dest rest
      refine (comparedWith_load slot ((Instruction.push v).op :: before)).trans ((if_pos hmem).trans ?_)
      rw [List.getElem?_cons_zero, pushArg_push]
      exact hbyte
  | other i => exact scan_of_noEq (noEq_cons hp noEq_nil) before rest
  | equal slot operand =>
    have hmem : bigValue slot.arg ∉ slots := fun h => ((hslots slot).mp h).elim hp.1 hp.2
    cases operand with
    | stack =>
      refine scan_equal (hcons slot noEq_nil) ?_ rest
      exact (comparedWith_load slot before).trans (if_neg hmem)
    | const q =>
      refine scan_equal (hcons slot (noEq_cons (push_op_ne_opEq q) noEq_nil)) ?_ rest
      exact (comparedWith_load_const slot q before).trans (if_neg hmem)
    | load q =>
      refine scan_equal (hcons slot (hcons q noEq_nil)) ?_ rest
      exact (comparedWith_load q _).trans (ite_self _)
  | computed op h =>
    obtain ⟨hload, heq⟩ := hp
    have hpre : NoEq [.plain op h] := noEq_cons heq noEq_nil
    exact scan_equal hpre (comparedWith_computed h hload before) rest

theorem scan_parts {saved : ℕ → Prop}
    (hslots : ∀ q : Push, bigValue q.arg ∈ slots ↔ value q.arg = 0 ∨ saved (value q.arg))
    {parts : List Part} (hparts : ∀ p ∈ parts, p.WellFormed saved) (before : List Op) :
    scan slots before ((parts.flatMap Part.instrs).map Instruction.op) =
      parts.flatMap Part.selectors := by
  induction parts generalizing before with
  | nil => rfl
  | cons p parts ih =>
    obtain ⟨hp, hparts⟩ := List.forall_mem_cons.mp hparts
    rw [List.flatMap_cons, List.map_append, scan_part hslots hp, ih hparts, List.flatMap_cons]

/-! ## The result -/

theorem mem_sortedDistinct {l : List ℕ} {v : ℕ} : v ∈ sortedDistinct l ↔ v ∈ l := mem_distinct

theorem sortedDistinct_pairwise (l : List ℕ) : (sortedDistinct l).Pairwise (· < ·) :=
  pairwise_lt_distinct l

theorem sortedDistinct_congr {l l' : List ℕ} (h : ∀ v, v ∈ l ↔ v ∈ l') :
    sortedDistinct l = sortedDistinct l' := by
  have hmem : ∀ v, v ∈ sortedDistinct l ↔ v ∈ sortedDistinct l' := by
    intro v
    rw [mem_sortedDistinct, mem_sortedDistinct]
    exact h v
  exact (sortedDistinct_pairwise l).eq_of_mem_iff (sortedDistinct_pairwise l') hmem

theorem byteValue_lt {arg : List UInt8} {v : ℕ} (h : byteValue arg = some v) : v < 256 := by
  rw [byteValue] at h
  split at h
  · obtain ⟨b, -, rfl⟩ := Option.map_eq_some_iff.mp h
    exact b.toNat_lt
  · cases h

theorem foundAt_lt {before after : List Op} {v : ℕ} (h : foundAt slots before after = some v) :
    v < 256 := by
  rw [foundAt, comparedWith] at h
  split at h
  · split at h
    · obtain ⟨_, -, h⟩ := Option.bind_eq_some_iff.mp h
      exact byteValue_lt h
    · split at h
      · obtain ⟨_, -, h⟩ := Option.bind_eq_some_iff.mp h
        exact byteValue_lt h
      · cases h
  · cases h

theorem scan_lt (before ins : List Op) : ∀ v ∈ scan slots before ins, v < 256 := by
  induction ins generalizing before with
  | nil => exact List.forall_mem_nil _
  | cons i after ih =>
    rw [scan, List.forall_mem_append]
    refine ⟨?_, ih _⟩
    split
    · intro v hv
      exact foundAt_lt (Option.mem_toList.mp hv)
    · exact List.forall_mem_nil _

/-- **Selector extraction is exact on dispatch code**: for code of well-formed parts the result is
the sorted list of the distinct selectors it compares with.  For every byte string it is strictly
ascending, and all bytes. -/
theorem decodeDispatchSelectors_exact :
    (∀ (selectors : List ℕ) (parts : List Part),
      (∀ p ∈ parts, p.WellFormed (Saved (parts.flatMap Part.instrs))) →
      (∀ v, v ∈ selectors ↔ v ∈ parts.flatMap Part.selectors) →
        decodeDispatchSelectors (assemble ((parts.flatMap Part.instrs).map Instruction.op)) =
          sortedDistinct selectors) ∧
    ∀ code, (decodeDispatchSelectors code).Pairwise (· < ·) ∧
      ∀ v ∈ decodeDispatchSelectors code, v < 256 := by
  refine ⟨?_, ?_⟩
  · intro selectors parts hparts hsel
    rw [decodeDispatchSelectors, disassemble_assemble, scan_parts (fun q => mem_selSlots_iff) hparts]
    exact sortedDistinct_congr fun v => (hsel v).symm
  · intro code
    refine ⟨sortedDistinct_pairwise _, ?_⟩
    intro v hv
    exact scan_lt _ _ v (mem_sortedDistinct.mp hv)

/-- The selector is saved, masked, to slot 0x20, which is compared with 0x42; as it is passed in, it
is compared with 0x07; then a `STOP`. -/
def smallDispatch : List Part :=
  [.save ⟨[0], by decide, by decide⟩ (some ⟨[0xff], by decide, by decide⟩) ⟨[0x20], by decide, by decide⟩,
    .compare ⟨[0x20], by decide, by decide⟩ ⟨[0x42], by decide, by decide⟩ false true
      ⟨[0x10], by decide, by decide⟩,
    .compare ⟨[0], by decide, by decide⟩ ⟨[0, 0x07], by decide, by decide⟩ true false
      ⟨[0x30], by decide, by decide⟩,
    .other (.plain 0 (by decide))]

theorem saved_smallDispatch : Saved (smallDispatch.flatMap Part.instrs) 0x20 :=
  ⟨⟨[0], by decide, by decide⟩, some ⟨[0xff], by decide, by decide⟩, ⟨[0x20], by decide, by decide⟩,
    by decide, by decide, by decide, (List.prefix_append _ _).isInfix⟩

theorem decodeDispatchSelectors_exact_small :
    decodeDispatchSelectors (assemble ((smallDispatch.flatMap Part.instrs).map Instruction.op)) =
      [0x07, 0x42] := by
  have hparts : ∀ p ∈ smallDispatch, p.WellFormed (Saved (smallDispatch.flatMap Part.instrs)) := by
    intro p hp
    simp only [smallDispatch, List.mem_cons, List.not_mem_nil, or_false] at hp
    rcases hp with rfl | rfl | rfl | rfl
    · exact ⟨by decide, by decide⟩
    · exact ⟨.inr saved_smallDispatch, by decide⟩
    · exact ⟨.inl (by decide), by decide⟩
    · exact (by decide : (0 : UInt8) ≠ opEq)
  exact decodeDispatchSelectors_exact.1 [0x07, 0x42] smallDispatch hparts fun v => by
    simp [smallDispatch, Part.selectors, value, or_comm]

end BoingObserver.Bytecode
