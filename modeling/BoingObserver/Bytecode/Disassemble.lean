import BoingObserver.Js.Coerce

/-!
# Boing VM bytecode

`disassemble` of `bytecode-selectors.ts`, and the instructions it takes apart.

* `disassemble_assemble`: disassembling whole instructions gives them back.
* `disassemble_tiles`: the instructions of any code cover it, each byte once.
* `bigValue_eq_iff`, `byteValue_eq_some`: what the texts and bytes of a push argument say
  of its value.
-/

namespace BoingObserver.Bytecode

open Js

def opEq : UInt8 := 0x14

def opIszero : UInt8 := 0x15

def opAnd : UInt8 := 0x16

def opMstore : UInt8 := 0x52

def opMload : UInt8 := 0x51

def opJumpi : UInt8 := 0x57

def opPush1 : UInt8 := 0x60

def opPush32 : UInt8 := 0x7f

def isPushOp (op : UInt8) : Bool := opPush1 ≤ op && op ≤ opPush32

/-- `{ op, arg? }` -/
structure Op where
  op : UInt8
  arg : Option (List UInt8)
  deriving DecidableEq

structure Instr extends Op where
  pc : ℕ

/-- The instructions from a place on; the argument of a push is cut short by the end. -/
def disassembleFrom (pc : ℕ) : List UInt8 → List Instr
  | [] => []
  | op :: rest =>
    if isPushOp op then
      let n := op.toNat - opPush1.toNat + 1
      ⟨⟨op, some (rest.take n)⟩, pc⟩ :: disassembleFrom (pc + 1 + n) (rest.drop n)
    else ⟨⟨op, none⟩, pc⟩ :: disassembleFrom (pc + 1) rest
termination_by code => code.length
decreasing_by all_goals grind

def disassemble (code : List UInt8) : List Instr := disassembleFrom 0 code

/-! ## Instructions -/

/-- The argument of a push, in any of its widths. -/
structure Push where
  arg : List UInt8
  ne_nil : arg ≠ []
  length_le : arg.length ≤ 32

inductive Instruction
  | push (p : Push)
  | plain (op : UInt8) (h : isPushOp op = false)

def Push.op (p : Push) : Op := ⟨UInt8.ofNat (opPush1.toNat - 1 + p.arg.length), some p.arg⟩

def Instruction.op : Instruction → Op
  | .push p => p.op
  | .plain op _ => ⟨op, none⟩

def assemble (ops : List Op) : List UInt8 := ops.flatMap fun i => i.op :: i.arg.getD []

theorem toNat_op_push (p : Push) : p.op.op.toNat = 95 + p.arg.length := by
  have hlen := p.length_le
  change (UInt8.ofNat (95 + p.arg.length)).toNat = _
  rw [UInt8.toNat_ofNat']
  exact Nat.mod_eq_of_lt (by omega)

theorem isPushOp_op (p : Push) : isPushOp p.op.op = true := by
  have hpos := List.length_pos_iff.mpr p.ne_nil
  have hlen := p.length_le
  have h := toNat_op_push p
  rw [isPushOp, Bool.and_eq_true, decide_eq_true_eq, decide_eq_true_eq, UInt8.le_iff_toNat_le,
    UInt8.le_iff_toNat_le, h]
  exact ⟨(by omega : 96 ≤ 95 + p.arg.length), (by omega : 95 + p.arg.length ≤ 127)⟩

theorem op_push_ne (p : Push) {op : UInt8} (h : isPushOp op = false) : p.op.op ≠ op := by
  rintro rfl
  exact Bool.false_ne_true (h.symm.trans (isPushOp_op p))

theorem disassembleFrom_push (pc : ℕ) (p : Push) (rest : List UInt8) :
    disassembleFrom pc (p.op.op :: (p.arg ++ rest)) =
      ⟨p.op, pc⟩ :: disassembleFrom (pc + 1 + p.arg.length) rest := by
  have hpos := List.length_pos_iff.mpr p.ne_nil
  have hn : p.op.op.toNat - opPush1.toNat + 1 = p.arg.length := by
    rw [toNat_op_push]
    change 95 + p.arg.length - 96 + 1 = _
    omega
  rw [disassembleFrom, if_pos (isPushOp_op p), hn]
  dsimp only
  rw [List.take_left, List.drop_left]
  rfl

theorem disassembleFrom_assemble (pc : ℕ) (is : List Instruction) :
    (disassembleFrom pc (assemble (is.map Instruction.op))).map Instr.toOp =
      is.map Instruction.op := by
  induction is generalizing pc with
  | nil => rw [List.map_nil, assemble, List.flatMap_nil, disassembleFrom, List.map_nil]
  | cons i is ih =>
    rw [List.map_cons, assemble, List.flatMap_cons, ← assemble]
    cases i with
    | push p =>
      change (disassembleFrom pc (p.op.op :: (p.arg ++ _))).map Instr.toOp = _
      rw [disassembleFrom_push, List.map_cons, ih]
      rfl
    | plain op h =>
      change (disassembleFrom pc (op :: assemble _)).map Instr.toOp = _
      rw [disassembleFrom, if_neg (Bool.eq_false_iff.mp h), List.map_cons, ih]
      rfl

/-- **Disassembling whole instructions gives them back.** -/
theorem disassemble_assemble (is : List Instruction) :
    (disassemble (assemble (is.map Instruction.op))).map Instr.toOp = is.map Instruction.op :=
  disassembleFrom_assemble 0 is

/-! ## Tiling -/

def Op.bytes (i : Op) : List UInt8 := i.op :: i.arg.getD []

theorem assemble_cons (i : Op) (ops : List Op) : assemble (i :: ops) = i.bytes ++ assemble ops := rfl

/-- Instructions one after the other, from a place on, and their bytes. -/
inductive Tiles : ℕ → List Instr → List UInt8 → Prop
  | nil (pc : ℕ) : Tiles pc [] []
  | cons (i : Instr) {is : List Instr} {rest : List UInt8}
      (h : Tiles (i.pc + i.bytes.length) is rest) : Tiles i.pc (i :: is) (i.bytes ++ rest)

/-- **The instructions of any code tile it**; a push that is cut short takes what there is. -/
theorem tiles_disassembleFrom (pc : ℕ) (code : List UInt8) :
    Tiles pc (disassembleFrom pc code) code := by
  induction pc, code using disassembleFrom.induct with
  | case1 pc =>
    rw [disassembleFrom]
    exact .nil pc
  | case2 pc op rest hpush n ih =>
    rw [disassembleFrom, if_pos hpush]
    dsimp only
    by_cases hn : n ≤ rest.length
    · have hlen : (Op.bytes ⟨op, some (rest.take n)⟩).length = 1 + n := by
        rw [Op.bytes, Option.getD_some, List.length_cons, List.length_take]
        omega
      rw [Nat.add_assoc, ← hlen] at ih ⊢
      have htiles := Tiles.cons ⟨⟨op, some (rest.take n)⟩, pc⟩ ih
      rwa [Op.bytes, Option.getD_some, List.cons_append, List.take_append_drop] at htiles
    · -- the last push, cut short by the end
      have hdrop : rest.drop n = [] := List.drop_eq_nil_of_le (by omega)
      have htake : rest.take n = rest := List.take_of_length_le (by omega)
      have hend : Tiles pc [⟨⟨op, some rest⟩, pc⟩] (op :: rest ++ []) :=
        Tiles.cons ⟨⟨op, some rest⟩, pc⟩ (.nil _)
      rw [hdrop, disassembleFrom, htake]
      rwa [List.append_nil] at hend
  | case3 pc op rest hplain ih =>
    rw [disassembleFrom, if_neg hplain]
    exact Tiles.cons ⟨⟨op, none⟩, pc⟩ ih

section

variable {pc : ℕ} {is : List Instr} {code : List UInt8}

theorem Tiles.assemble_eq (h : Tiles pc is code) : assemble (is.map Instr.toOp) = code := by
  induction h with
  | nil => rfl
  | cons i _ ih => rw [List.map_cons, assemble_cons, ih]

theorem Tiles.le_pc (h : Tiles pc is code) : ∀ i ∈ is, pc ≤ i.pc := by
  induction h with
  | nil => exact List.forall_mem_nil _
  | cons i _ ih =>
    refine List.forall_mem_cons.mpr ⟨le_rfl, fun j hj => ?_⟩
    exact (Nat.le_add_right _ _).trans (ih j hj)

/-- **Every byte is covered once.** -/
theorem Tiles.existsUnique (h : Tiles pc is code) {k : ℕ} (hk : pc ≤ k) (hk' : k < pc + code.length) :
    ∃! i, i ∈ is ∧ i.pc ≤ k ∧ k < i.pc + i.bytes.length := by
  induction h with
  | nil => exact absurd hk' (by simpa using hk)
  | @cons i is rest h ih =>
    rw [List.length_append] at hk'
    by_cases hlt : k < i.pc + i.bytes.length
    · refine ⟨i, ⟨List.mem_cons_self, hk, hlt⟩, ?_⟩
      rintro j ⟨hj, hjk, -⟩
      rcases List.mem_cons.mp hj with rfl | hj
      · rfl
      · exact absurd (h.le_pc j hj) (by omega)
    · obtain ⟨j, ⟨hj, hcover⟩, hunique⟩ := ih (by omega) (by omega)
      refine ⟨j, ⟨List.mem_cons_of_mem i hj, hcover⟩, ?_⟩
      rintro j' ⟨hj', hcover'⟩
      rcases List.mem_cons.mp hj' with rfl | hj'
      · exact absurd hcover'.2 hlt
      · exact hunique j' ⟨hj', hcover'⟩

theorem Tiles.pairwise_pc (h : Tiles pc is code) : (is.map Instr.pc).Pairwise (· < ·) := by
  induction h with
  | nil => exact List.Pairwise.nil
  | cons i h ih =>
    refine List.pairwise_cons.mpr ⟨fun k hk => ?_, ih⟩
    obtain ⟨j, hj, rfl⟩ := List.mem_map.mp hk
    have hle := h.le_pc j hj
    have hpos : 0 < i.bytes.length := Nat.succ_pos _
    omega

theorem Tiles.bytes_eq (h : Tiles pc is code) :
    ∀ i ∈ is, (code.drop (i.pc - pc)).take i.bytes.length = i.bytes := by
  induction h with
  | nil => exact List.forall_mem_nil _
  | @cons i is rest h ih =>
    refine List.forall_mem_cons.mpr ⟨by rw [Nat.sub_self, List.drop_zero, List.take_left], ?_⟩
    intro j hj
    have hle := h.le_pc j hj
    have hplace : j.pc - i.pc = i.bytes.length + (j.pc - (i.pc + i.bytes.length)) := by omega
    rw [hplace, List.drop_length_add_append]
    exact ih j hj

end

/-- **The disassembler tiles the code**: the program counters go up, the bytes of the instructions
are those of the code, each at its place, and every byte is covered by one instruction. -/
theorem disassemble_tiles (code : List UInt8) :
    ((disassemble code).map Instr.pc).Pairwise (· < ·) ∧
      assemble ((disassemble code).map Instr.toOp) = code ∧
      (∀ i ∈ disassemble code, (code.drop i.pc).take i.bytes.length = i.bytes) ∧
      ∀ k < code.length, ∃! i, i ∈ disassemble code ∧ i.pc ≤ k ∧ k < i.pc + i.bytes.length := by
  have h : Tiles 0 (disassemble code) code := tiles_disassembleFrom 0 code
  refine ⟨h.pairwise_pc, h.assemble_eq, h.bytes_eq, fun k hk => ?_⟩
  exact h.existsUnique (Nat.zero_le k) (by omega)

/-- A push of two bytes that is cut short. -/
example : (disassemble [0x61, 0x05]).map Instr.toOp = [⟨0x61, some [0x05]⟩] := by
  simp [disassemble, disassembleFrom, isPushOp, opPush1, opPush32]

/-! ## Arguments -/

/-- The number an argument denotes. -/
def value (arg : List UInt8) : ℕ := arg.foldl (fun n b => n * 256 + b.toNat) 0

/-- Value of a push argument when it fits in one byte. -/
def byteValue (arg : List UInt8) : Option ℕ :=
  if arg.dropLast.all (· = 0) then arg.getLast?.map UInt8.toNat else none

def bigValue (arg : List UInt8) : Text :=
  let s := (bytesToHex (arg.map UInt8.toNat)).dropWhile (· = '0')
  if s = [] then "0" else s

theorem value_concat (arg : List UInt8) (b : UInt8) :
    value (arg ++ [b]) = value arg * 256 + b.toNat := by
  rw [value, List.foldl_append]
  rfl

theorem value_eq_zero_iff {arg : List UInt8} : value arg = 0 ↔ ∀ b ∈ arg, b = 0 := by
  induction arg using List.reverseRecOn with
  | nil => exact ⟨fun _ => List.forall_mem_nil _, fun _ => rfl⟩
  | append_singleton arg b ih =>
    rw [value_concat, List.forall_mem_append, ← ih, List.forall_mem_singleton,
      ← UInt8.toNat_inj, UInt8.toNat_zero]
    omega

/-- **An argument below 256** is one byte after zeros. -/
theorem byteValue_eq_some {arg : List UInt8} (hne : arg ≠ []) {v : ℕ} :
    byteValue arg = some v ↔ value arg = v ∧ v < 256 := by
  obtain ⟨init, b, rfl⟩ := (List.eq_nil_or_concat' arg).resolve_left hne
  rw [byteValue, List.dropLast_concat, List.getLast?_concat, value_concat, Option.map_some]
  have hb := b.toNat_lt
  by_cases hz : init.all (· = 0) = true
  · rw [if_pos hz, Option.some_inj]
    have h0 : value init = 0 := by
      refine value_eq_zero_iff.mpr fun c hc => ?_
      exact of_decide_eq_true (List.all_eq_true.mp hz c hc)
    omega
  · rw [if_neg hz]
    have h0 : value init ≠ 0 := by
      intro h0
      refine hz (List.all_eq_true.mpr fun c hc => ?_)
      exact decide_eq_true (value_eq_zero_iff.mp h0 c hc)
    constructor
    · intro h
      cases h
    · rintro ⟨rfl, hlt⟩
      omega

theorem value_eq_numeral (arg : List UInt8) :
    value arg = numeral 16 (bytesToHex (arg.map UInt8.toNat)) := by
  induction arg using List.reverseRecOn with
  | nil => rfl
  | append_singleton arg b ih =>
    have hlen : (padHex 2 b.toNat).length = 2 := length_padHex (by omega) b.toNat_lt
    rw [value_concat, List.map_append, bytesToHex, List.flatMap_append, numeral_append, ← bytesToHex,
      ← ih, List.map_singleton, List.flatMap_singleton, numeral_padHex, hlen]
    norm_num

theorem dropWhile_replicate_append (n : ℕ) (s : Text) :
    (List.replicate n '0' ++ s).dropWhile (· = '0') = s.dropWhile (· = '0') := by
  induction n with
  | zero => rfl
  | succ n ih => exact ih

theorem dropWhile_eq_of_numeral_eq {s t : Text} (hs : IsHex s) (ht : IsHex t)
    (h : numeral 16 s = numeral 16 t) : s.dropWhile (· = '0') = t.dropWhile (· = '0') := by
  have hpad : List.replicate t.length '0' ++ s = List.replicate s.length '0' ++ t := by
    refine numeral_inj ((isHex_replicate_zero _).append hs) ((isHex_replicate_zero _).append ht)
      ?_ ?_
    · rw [List.length_append, List.length_append, List.length_replicate, List.length_replicate,
        Nat.add_comm]
    · rw [numeral_append, numeral_append, numeral_replicate_zero, numeral_replicate_zero, h,
        Nat.zero_mul, Nat.zero_mul]
  rw [← dropWhile_replicate_append t.length s, hpad, dropWhile_replicate_append]

theorem numeral_dropWhile (s : Text) :
    numeral 16 (s.dropWhile (· = '0')) = numeral 16 s := by
  induction s with
  | nil => rfl
  | cons c s ih =>
    by_cases hc : c = '0'
    · subst hc
      rw [List.dropWhile_cons_of_pos rfl, ih, numeral_cons]
      exact (by simp [digitVal] : numeral 16 s = digitVal '0' * 16 ^ s.length + numeral 16 s)
    · rw [List.dropWhile_cons_of_neg (by simpa using hc)]

theorem numeral_bigValue (arg : List UInt8) : numeral 16 (bigValue arg) = value arg := by
  have h := (value_eq_numeral arg).trans (numeral_dropWhile _).symm
  rw [h, bigValue]
  split
  next h =>
    rw [h]
    rfl
  next => rfl

/-- **The texts of two arguments are one exactly when their values are.** -/
theorem bigValue_eq_iff {a b : List UInt8} : bigValue a = bigValue b ↔ value a = value b := by
  constructor
  · intro h
    rw [← numeral_bigValue, h, numeral_bigValue]
  · intro h
    rw [value_eq_numeral, value_eq_numeral] at h
    rw [bigValue, bigValue,
      dropWhile_eq_of_numeral_eq (isHex_bytesToHex _) (isHex_bytesToHex _) h]

theorem bigValue_eq_zero_iff {arg : List UInt8} : bigValue arg = "0" ↔ value arg = 0 := by
  have h : bigValue [] = "0" := rfl
  rw [← h, bigValue_eq_iff]
  rfl

end BoingObserver.Bytecode
