import BoingObserver.Js.Text
import Mathlib.Algebra.Order.Ring.Nat
import Mathlib.Tactic.Ring

/-!
# Numerals

Positional numerals in a base up to `16`, as texts: `numeral b s` is the number
a digit text denotes, `Nat.toDigits b n` the shortest text denoting `n`, and
`padHex k n` the hexadecimal text of width `k`.

* `numeral_toDigits`: reading what was written gives the number back.
* `numeral_lt_iff_take`: the leading `k` digits are zeros exactly when the
  number is below `16 ^ (length - k)`.
-/

namespace BoingObserver.Js

/-! ## Digits -/

def digitVal (c : Char) : ℕ :=
  if c ≤ '9' then c.toNat - 48 else if 'a' ≤ c then c.toNat - 87 else c.toNat - 55

theorem digitVal_lt {c : Char} (h : isHexDigit c = true) : digitVal c < 16 := by
  rw [isHexDigit_iff] at h
  have h9 : c ≤ '9' ↔ c.toNat ≤ 57 := Iff.rfl
  have ha : 'a' ≤ c ↔ 97 ≤ c.toNat := Iff.rfl
  rw [digitVal]
  split_ifs with h1 h2 <;> simp only [h9, ha] at * <;> omega

theorem digitVal_digitChar : ∀ n < 16, digitVal (Nat.digitChar n) = n := by decide

theorem isHexDigit_digitChar : ∀ n < 16, isHexDigit (Nat.digitChar n) = true := by decide

theorem digitChar_digitVal {c : Char} (h : isHexDigit c = true) :
    Nat.digitChar (digitVal c) = c := by
  have hc : c = Char.ofNat c.toNat := (Char.ofNat_toNat c).symm
  rw [isHexDigit_iff] at h
  generalize c.toNat = n at h hc
  subst hc
  rcases h with h | h
  · have : ∀ n, 48 ≤ n → n < 58 → Nat.digitChar (digitVal (Char.ofNat n)) = Char.ofNat n := by
      decide
    exact this n h.1 (by omega)
  · have : ∀ n < 103, 97 ≤ n → Nat.digitChar (digitVal (Char.ofNat n)) = Char.ofNat n := by
      decide
    exact this n (by omega) h.1

/-! ## Reading -/

/-- The number a text of digits denotes in base `b`. -/
def numeral (b : ℕ) (s : Text) : ℕ := s.foldl (fun n c => n * b + digitVal c) 0

@[simp] theorem numeral_nil (b : ℕ) : numeral b [] = 0 := rfl

theorem numeral_append (b : ℕ) (s t : Text) :
    numeral b (s ++ t) = numeral b s * b ^ t.length + numeral b t := by
  have aux : ∀ (t : Text) (n : ℕ), t.foldl (fun n c => n * b + digitVal c) n =
      n * b ^ t.length + numeral b t := by
    intro t
    induction t with
    | nil => intro n; simp
    | cons c t ih =>
      intro n
      rw [numeral, List.foldl_cons, List.foldl_cons, ih, ih (0 * b + digitVal c),
        List.length_cons]
      ring
  rw [numeral, List.foldl_append, aux]
  rfl

theorem numeral_cons (b : ℕ) (c : Char) (s : Text) :
    numeral b (c :: s) = digitVal c * b ^ s.length + numeral b s := by
  have h := numeral_append b [c] s
  simpa [numeral] using h

theorem eq_zero_of_digitVal {c : Char} (h : c.isDigit = true) (h0 : digitVal c = 0) : c = '0' := by
  have hc : c = Char.ofNat c.toNat := (Char.ofNat_toNat c).symm
  have hle : 48 ≤ c.toNat ∧ c.toNat ≤ 57 := by
    rw [Char.isDigit, Bool.and_eq_true, decide_eq_true_eq, decide_eq_true_eq] at h
    exact h
  have hval : digitVal c = c.toNat - 48 := if_pos (show c.toNat ≤ 57 from hle.2)
  rw [hc, show c.toNat = 48 by omega]

theorem numeral_pos {s : Text} (h : ∀ c ∈ s, c.isDigit = true) (hne : ¬ s.all (· = '0') = true) :
    0 < numeral 10 s := by
  induction s with
  | nil => exact absurd rfl hne
  | cons c s ih =>
    obtain ⟨hc, hs⟩ := List.forall_mem_cons.mp h
    rw [numeral_cons]
    by_cases h0 : digitVal c = 0
    · have hrest : ¬ s.all (· = '0') = true := by
        rw [List.all_cons, decide_eq_true (eq_zero_of_digitVal hc h0), Bool.true_and] at hne
        exact hne
      exact Nat.add_pos_right _ (ih hs hrest)
    · exact Nat.add_pos_left (Nat.mul_pos (Nat.pos_of_ne_zero h0) (Nat.pow_pos (by omega))) _

@[simp] theorem numeral_replicate_zero (b n : ℕ) : numeral b (List.replicate n '0') = 0 := by
  induction n with
  | zero => rfl
  | succ n ih => rw [List.replicate_succ, numeral_cons, ih]; simp [digitVal]

theorem numeral_leftpad (b n : ℕ) (s : Text) : numeral b (s.leftpad n '0') = numeral b s := by
  rw [List.leftpad, numeral_append, numeral_replicate_zero]
  omega

theorem numeral_lt_pow {b : ℕ} {s : Text} (h : ∀ c ∈ s, digitVal c < b) :
    numeral b s < b ^ s.length := by
  induction s with
  | nil => exact Nat.one_pos
  | cons c s ih =>
    obtain ⟨hc, hs⟩ := List.forall_mem_cons.mp h
    have hm := Nat.mul_le_mul_right (b ^ s.length) (Nat.succ_le_of_lt hc)
    have hrest := ih hs
    rw [Nat.succ_mul] at hm
    rw [numeral_cons, List.length_cons, pow_succ, Nat.mul_comm _ b]
    omega

/-- **A numeral determines its digits**, among texts of one length. -/
theorem numeral_inj_of_lt {b : ℕ} : ∀ {s t : Text}, IsHex s → IsHex t →
    (∀ c ∈ s, digitVal c < b) → (∀ c ∈ t, digitVal c < b) → s.length = t.length →
      numeral b s = numeral b t → s = t
  | [], [], _, _, _, _, _, _ => rfl
  | c :: s, d :: t, hs, ht, hsb, htb, hl, h => by
    have hl' : s.length = t.length := by simpa using hl
    obtain ⟨hc, hs'⟩ := List.forall_mem_cons.mp hs
    obtain ⟨hd, ht'⟩ := List.forall_mem_cons.mp ht
    obtain ⟨hcb, hsb'⟩ := List.forall_mem_cons.mp hsb
    obtain ⟨-, htb'⟩ := List.forall_mem_cons.mp htb
    have h1 := numeral_lt_pow hsb'
    have h2 := numeral_lt_pow htb'
    rw [numeral_cons, numeral_cons, hl'] at h
    rw [hl'] at h1
    -- the leading digits are the two quotients by `b ^ t.length`
    have hpow : 0 < b ^ t.length := Nat.pow_pos (by omega)
    have hq : digitVal c = digitVal d := by
      have := congrArg (· / b ^ t.length) h
      simpa only [Nat.mul_comm _ (b ^ t.length), Nat.mul_add_div hpow, Nat.div_eq_of_lt h1,
        Nat.div_eq_of_lt h2, Nat.add_zero] using this
    have hcd : c = d := by rw [← digitChar_digitVal hc, hq, digitChar_digitVal hd]
    subst hcd
    rw [numeral_inj_of_lt hs' ht' hsb' htb' hl' (by omega)]

theorem numeral_lt {s : Text} (h : IsHex s) : numeral 16 s < 16 ^ s.length :=
  numeral_lt_pow fun c hc => digitVal_lt (h c hc)

/-- **`numeral 16` is injective on hexadecimal texts of one length.** -/
theorem numeral_inj {s t : Text} (hs : IsHex s) (ht : IsHex t) (hl : s.length = t.length)
    (h : numeral 16 s = numeral 16 t) : s = t :=
  numeral_inj_of_lt hs ht (fun c hc => digitVal_lt (hs c hc)) (fun c hc => digitVal_lt (ht c hc))
    hl h

theorem digitVal_lt_ten {c : Char} (h : c.isDigit = true) : digitVal c < 10 := by
  have hle : 48 ≤ c.toNat ∧ c.toNat ≤ 57 := by
    rw [Char.isDigit, Bool.and_eq_true, decide_eq_true_eq, decide_eq_true_eq] at h
    exact h
  rw [digitVal, if_pos (show c ≤ '9' from hle.2)]
  omega

theorem numeral_lt_ten_pow {s : Text} (h : ∀ c ∈ s, c.isDigit = true) :
    numeral 10 s < 10 ^ s.length :=
  numeral_lt_pow fun c hc => digitVal_lt_ten (h c hc)

theorem numeral_take {s : Text} (h : ∀ c ∈ s, c.isDigit = true) (j : ℕ) :
    numeral 10 (s.take j) = numeral 10 s / 10 ^ (s.length - j) := by
  have hrest : numeral 10 (s.drop j) < 10 ^ (s.drop j).length :=
    numeral_lt_ten_pow fun c hc => h c (List.mem_of_mem_drop hc)
  conv_rhs => rw [← List.take_append_drop j s]
  rw [numeral_append, List.take_append_drop, ← List.length_drop,
    Nat.mul_comm, Nat.mul_add_div (Nat.pow_pos (by omega)), Nat.div_eq_of_lt hrest, Nat.add_zero]

/-- **Decimal texts of one length are determined by their number.** -/
theorem numeral_ten_inj {s t : Text} (hs : ∀ c ∈ s, c.isDigit = true)
    (ht : ∀ c ∈ t, c.isDigit = true) (hl : s.length = t.length)
    (h : numeral 10 s = numeral 10 t) : s = t :=
  numeral_inj_of_lt (fun c hc => isHexDigit_of_isDigit (hs c hc))
    (fun c hc => isHexDigit_of_isDigit (ht c hc)) (fun c hc => digitVal_lt_ten (hs c hc))
    (fun c hc => digitVal_lt_ten (ht c hc)) hl h

theorem numeral_eq_zero_iff {s : Text} (h : IsHex s) :
    numeral 16 s = 0 ↔ s = List.replicate s.length '0' := by
  refine ⟨fun h0 => ?_, fun e => by rw [e]; exact numeral_replicate_zero 16 _⟩
  exact numeral_inj h (isHex_replicate_zero _) (by simp) (by rw [h0, numeral_replicate_zero])

/-- **The leading `k` digits are zeros exactly when the number fits in the rest.** -/
theorem numeral_lt_iff_take {s : Text} (h : IsHex s) {k : ℕ} (hk : k ≤ s.length) :
    numeral 16 s < 16 ^ (s.length - k) ↔ s.take k = List.replicate k '0' := by
  have hsplit : numeral 16 s =
      numeral 16 (s.take k) * 16 ^ (s.length - k) + numeral 16 (s.drop k) := by
    conv_lhs => rw [← List.take_append_drop k s]
    rw [numeral_append, List.length_drop]
  have hd := numeral_lt (h.drop k)
  rw [List.length_drop] at hd
  have hz := numeral_eq_zero_iff (h.take k)
  rw [List.length_take, Nat.min_eq_left hk] at hz
  rw [hsplit, ← hz]
  constructor
  · intro hlt
    by_contra hne
    have := Nat.mul_le_mul_right (16 ^ (s.length - k)) (Nat.one_le_iff_ne_zero.mpr hne)
    omega
  · intro h0
    rw [h0]
    omega

/-! ## Writing -/

theorem numeral_toDigits {b : ℕ} (hb : 1 < b) (hb' : b ≤ 16) (n : ℕ) :
    numeral b (Nat.toDigits b n) = n := by
  induction n using Nat.strong_induction_on with
  | _ n ih =>
    by_cases h : n < b
    · rw [Nat.toDigits_of_lt_base h, numeral_cons, digitVal_digitChar n (by omega)]
      simp
    · rw [Nat.toDigits_of_base_le hb (by omega), numeral_append,
        ih (n / b) (Nat.div_lt_self (by omega) hb), numeral_cons,
        digitVal_digitChar (n % b) (lt_of_lt_of_le (Nat.mod_lt n (by omega)) hb')]
      simpa using Nat.div_add_mod' n b

theorem isHex_toDigits (n : ℕ) : IsHex (Nat.toDigits 16 n) := by
  induction n using Nat.strong_induction_on with
  | _ n ih =>
    intro c hc
    by_cases h : n < 16
    · rw [Nat.toDigits_of_lt_base h, List.mem_singleton] at hc
      exact hc ▸ isHexDigit_digitChar n h
    · rw [Nat.toDigits_of_base_le (by omega) (by omega)] at hc
      rcases List.mem_append.mp hc with hc | hc
      · exact ih (n / 16) (by omega) c hc
      · rw [List.mem_singleton] at hc
        exact hc ▸ isHexDigit_digitChar (n % 16) (Nat.mod_lt n (by omega))

/-- `n.toString()` -/
def decimal (n : ℕ) : Text := Nat.toDigits 10 n

theorem isDigits_decimal (n : ℕ) : IsDigits (decimal n) :=
  ⟨Nat.toDigits_ne_nil, fun _ hc => Nat.isDigit_of_mem_toDigits (by omega) (le_refl 10) hc⟩

theorem numeral_decimal (n : ℕ) : numeral 10 (decimal n) = n :=
  numeral_toDigits (by omega) (by omega) n

theorem length_decimal_le_iff {n k : ℕ} (hk : 0 < k) : (decimal n).length ≤ k ↔ n < 10 ^ k :=
  Nat.length_toDigits_le_iff (by omega) hk

theorem decimal_head {n : ℕ} (h : n ≠ 0) :
    ∃ c s, decimal n = c :: s ∧ c ≠ '0' ∧ c.isDigit = true := by
  induction n using Nat.strong_induction_on with
  | _ n ih =>
    by_cases hn : n < 10
    · have hdigit : ∀ m < 10, m ≠ 0 → Nat.digitChar m ≠ '0' ∧ (Nat.digitChar m).isDigit = true := by
        decide
      exact ⟨_, [], Nat.toDigits_of_lt_base hn, hdigit n hn h⟩
    · obtain ⟨c, s, hs, hc⟩ := ih (n / 10) (by omega) (by omega)
      refine ⟨c, s ++ [Nat.digitChar (n % 10)], ?_, hc⟩
      rw [decimal, Nat.toDigits_of_base_le (by omega) (by omega), ← decimal, hs,
        List.cons_append]

theorem trim_decimal (n : ℕ) : trim (decimal n) = decimal n :=
  (isDigits_decimal n).isHex.trim_eq

/-- `n.toString(16).padStart(k, "0")` -/
def padHex (k n : ℕ) : Text := (Nat.toDigits 16 n).leftpad k '0'

theorem isHex_padHex (k n : ℕ) : IsHex (padHex k n) :=
  (isHex_replicate_zero _).append (isHex_toDigits n)

@[simp] theorem numeral_padHex (k n : ℕ) : numeral 16 (padHex k n) = n := by
  rw [padHex, numeral_leftpad, numeral_toDigits (by omega) (by omega)]

theorem length_padHex {k n : ℕ} (hk : 0 < k) (h : n < 16 ^ k) : (padHex k n).length = k := by
  rw [padHex, List.length_leftpad]
  exact max_eq_left ((Nat.length_toDigits_le_iff (by omega) hk).mpr h)

end BoingObserver.Js
