import BoingObserver.Published.Bytes

/-!
# Bytes and words

Bytes and their hex texts, and numbers as words of 32 bytes.

* `hexToBytes_bytesToHex`: bytes come back from their hex text.
* `beBytes_add`: the bytes of a number, cut in two.
* `foldl_beBytes`: a number comes back from its bytes.
-/

namespace BoingObserver.Published

open Js Rpc

/-! ## Bytes and their texts -/

def AreBytes (bytes : List ℕ) : Prop := ∀ b ∈ bytes, b < 256

theorem parseInt16_of_isHex {s : Text} (h : IsHex s) (hne : s ≠ []) :
    parseInt16 s = some (numeral 16 s : ℤ) := by
  have hspace : s.dropWhile isSpace = s := by
    cases s with
    | nil => rfl
    | cons c s => rw [List.dropWhile_cons_of_neg (by simp [isSpace_of_isHexDigit (h c (by simp))])]
  have hsign : ¬ (s.head? = some '-' ∨ s.head? = some '+') := by
    rintro (e | e)
    · exact absurd (h '-' (List.mem_of_mem_head? e)) (by decide)
    · exact absurd (h '+' (List.mem_of_mem_head? e)) (by decide)
  have hhex : s.takeWhile isAnyHexDigit = s := by
    rw [List.takeWhile_eq_self_iff]
    intro c hc
    rw [isAnyHexDigit, h c hc, Bool.true_or]
  rw [parseInt16, hspace, if_neg hsign, h.strip0x_eq, hhex, if_neg hne, if_neg]
  intro e
  exact hsign (Or.inl (of_decide_eq_true e))

theorem byteAt_bytesToHex {b : ℕ} (hb : b < 256) (s : Text) : byteAt (padHex 2 b ++ s) 0 = b := by
  have hlen : (padHex 2 b).length = 2 := length_padHex (by omega) hb
  have hslice : slice (padHex 2 b ++ s) (2 * 0) (2 * 0 + 2) = padHex 2 b :=
    slice_append_left hlen s
  have hne : padHex 2 b ≠ [] := by
    intro e
    rw [e] at hlen
    cases hlen
  rw [byteAt, hslice, parseInt16_of_isHex (isHex_padHex 2 b) hne, numeral_padHex]
  change ((b : ℤ) % 256).toNat = b
  omega

theorem byteAt_append {w : Text} (hw : w.length = 2) (s : Text) (i : ℕ) :
    byteAt (w ++ s) (i + 1) = byteAt s i := by
  have hslice : slice (w ++ s) (2 * (i + 1)) (2 * (i + 1) + 2) = slice s (2 * i) (2 * i + 2) := by
    rw [slice, slice, show 2 * (i + 1) = w.length + 2 * i by omega, List.drop_length_add_append]
    congr 1
    omega
  rw [byteAt, byteAt, hslice]

/-- **Bytes come back from their hex text.** -/
theorem hexToBytes_bytesToHex {bytes : List ℕ} (h : AreBytes bytes) :
    hexToBytes (bytesToHex bytes) = bytes := by
  have hhex := isHex_bytesToHex bytes
  rw [hexToBytes, h64, hhex.strip0x_eq, hhex.toLowerCase_eq, length_bytesToHex h, Nat.mul_div_cancel_left _ (by omega)]
  clear hhex
  induction bytes with
  | nil => rfl
  | cons b bytes ih =>
    obtain ⟨hb, hbytes⟩ := List.forall_mem_cons.mp h
    have hlen : (padHex 2 b).length = 2 := length_padHex (by omega) hb
    rw [List.length_cons, List.range_succ_eq_map, List.map_cons, List.map_map, bytesToHex,
      List.flatMap_cons, byteAt_bytesToHex hb]
    refine congrArg (b :: ·) ((List.map_congr_left fun i _ => ?_).trans (ih hbytes))
    exact byteAt_append hlen _ i

theorem bytesToHex_inj {bytes bytes' : List ℕ} (h : AreBytes bytes) (h' : AreBytes bytes')
    (heq : bytesToHex bytes = bytesToHex bytes') : bytes = bytes' := by
  rw [← hexToBytes_bytesToHex h, heq, hexToBytes_bytesToHex h']

theorem bytesToHex_append (a b : List ℕ) : bytesToHex (a ++ b) = bytesToHex a ++ bytesToHex b :=
  List.flatMap_append

theorem take_bytesToHex {bytes : List ℕ} (h : AreBytes bytes) (k : ℕ) :
    (bytesToHex bytes).take (2 * k) = bytesToHex (bytes.take k) := by
  induction bytes generalizing k with
  | nil => rw [List.take_nil]; exact List.take_nil
  | cons b bytes ih =>
    obtain ⟨hb, hbytes⟩ := List.forall_mem_cons.mp h
    have hlen : (padHex 2 b).length = 2 := length_padHex (by omega) hb
    cases k with
    | zero => rfl
    | succ k =>
      have hk : 2 * (k + 1) = (padHex 2 b).length + 2 * k := by omega
      rw [bytesToHex, List.flatMap_cons, hk, List.take_length_add_append, ← bytesToHex,
        ih hbytes, List.take_succ_cons, bytesToHex, bytesToHex, List.flatMap_cons]

theorem bytesToHex_replicate_zero (n : ℕ) :
    bytesToHex (List.replicate n 0) = List.replicate (2 * n) '0' := by
  have hpad : padHex 2 0 = ['0', '0'] := by decide
  induction n with
  | zero => rfl
  | succ n ih =>
    rw [List.replicate_succ, bytesToHex, List.flatMap_cons, ← bytesToHex, ih, hpad, Nat.mul_succ,
      List.replicate_succ, List.replicate_succ]
    rfl

theorem areBytes_leBytes (k n : ℕ) : AreBytes (leBytes k n) := by
  induction k generalizing n with
  | zero => exact List.forall_mem_nil _
  | succ k ih => exact List.forall_mem_cons.mpr ⟨Nat.mod_lt n (by omega), ih _⟩

theorem beBytes_succ (k n : ℕ) : beBytes (k + 1) n = beBytes k (n / 256) ++ [n % 256] :=
  List.reverse_cons

theorem areBytes_beBytes (k n : ℕ) : AreBytes (beBytes k n) :=
  fun b hb => areBytes_leBytes k n b (List.mem_reverse.mp hb)

@[simp] theorem length_beBytes (k n : ℕ) : (beBytes k n).length = k := by
  rw [beBytes, List.length_reverse, length_leBytes]

theorem numeral_beBytes (k n : ℕ) : numeral 16 (bytesToHex (beBytes k n)) = n % 256 ^ k := by
  induction k generalizing n with
  | zero => rw [pow_zero, Nat.mod_one]; rfl
  | succ k ih =>
    have hlen : (bytesToHex [n % 256]).length = 2 :=
      length_bytesToHex (List.forall_mem_singleton.mpr (Nat.mod_lt n (by omega)))
    have hlast : numeral 16 (bytesToHex [n % 256]) = n % 256 := by
      rw [bytesToHex, List.flatMap_singleton, numeral_padHex]
    have hpow : 256 ^ (k + 1) = 256 * 256 ^ k := pow_succ' 256 k
    rw [beBytes_succ, bytesToHex_append, numeral_append, ih, hlen, hlast, hpow, Nat.mod_mul]
    ring

theorem beBytes_inj {k n n' : ℕ} (hn : n < 256 ^ k) (hn' : n' < 256 ^ k)
    (h : beBytes k n = beBytes k n') : n = n' := by
  rw [← Nat.mod_eq_of_lt hn, ← Nat.mod_eq_of_lt hn', ← numeral_beBytes, h, numeral_beBytes]

theorem beBytes_add (j k n : ℕ) : beBytes (j + k) n = beBytes j (n / 256 ^ k) ++ beBytes k n := by
  induction k generalizing n with
  | zero =>
    rw [Nat.add_zero, pow_zero, Nat.div_one]
    exact (List.append_nil _).symm
  | succ k ih =>
    rw [← Nat.add_assoc, beBytes_succ, beBytes_succ, ih, Nat.div_div_eq_div_mul, pow_succ',
      List.append_assoc]

/-- **A number comes back from its bytes**, up to their number. -/
theorem foldl_beBytes (k n : ℕ) :
    (beBytes k n).foldl (fun n b => (n <<< 8) ||| b) 0 = n % 256 ^ k := by
  induction k generalizing n with
  | zero => exact (Nat.mod_one n).symm
  | succ k ih =>
    have hbyte : n % 256 < 2 ^ 8 := Nat.mod_lt n (by omega)
    have hpow : 256 ^ (k + 1) = 256 * 256 ^ k := pow_succ' 256 k
    rw [beBytes_succ, List.foldl_append, ih, List.foldl_cons, List.foldl_nil,
      ← Nat.shiftLeft_add_eq_or_of_lt hbyte, Nat.shiftLeft_eq, hpow, Nat.mod_mul]
    ring

/-! ## Words -/

structure IsWord (word : List ℕ) : Prop where
  bytes : AreBytes word
  length : word.length = 32

theorem isWord_beBytes (n : ℕ) : IsWord (beBytes 32 n) :=
  ⟨areBytes_beBytes 32 n, length_beBytes 32 n⟩

end BoingObserver.Published
