import Mathlib.Data.List.Basic

/-!
# Base 64

Three bytes are four digits of six bits; of one or two bytes left over, the digits that hold
their bits.  `atob` and `btoa` are those of a browser.

* `octets_sextets`: bytes come back from their digits.
* `atob_padded`: digits are read, padded to whole groups.
-/

namespace BoingObserver.Base64

/-! ## Digits -/

def sextets : List ℕ → List ℕ
  | a :: b :: c :: bytes =>
    a / 4 :: (a % 4 * 16 + b / 16) :: (b % 16 * 4 + c / 64) :: c % 64 :: sextets bytes
  | [a, b] => [a / 4, a % 4 * 16 + b / 16, b % 16 * 4]
  | [a] => [a / 4, a % 4 * 16]
  | [] => []

/-- The bytes of some digits; bits that fill no byte are dropped. -/
def octets : List ℕ → List ℕ
  | p :: q :: r :: s :: digits =>
    (p * 4 + q / 16) :: (q % 16 * 16 + r / 4) :: (r % 4 * 64 + s) :: octets digits
  | [p, q, r] => [p * 4 + q / 16, q % 16 * 16 + r / 4]
  | [p, q] => [p * 4 + q / 16]
  | _ => []

/-- **Bytes come back from their digits.** -/
theorem octets_sextets {bytes : List ℕ} (h : ∀ b ∈ bytes, b < 256) :
    octets (sextets bytes) = bytes := by
  induction bytes using sextets.induct with
  | case1 a b c bytes ih =>
    simp only [List.forall_mem_cons] at h
    obtain ⟨ha, hb, hc, hbytes⟩ := h
    rw [sextets, octets, ih hbytes]
    simp only [List.cons.injEq, and_true]
    omega
  | case2 a b =>
    simp only [List.forall_mem_cons] at h
    simp only [sextets, octets, List.cons.injEq, and_true]
    omega
  | case3 a =>
    simp only [sextets, octets, List.cons.injEq, and_true]
    omega
  | case4 => rfl

theorem sextets_lt {bytes : List ℕ} (h : ∀ b ∈ bytes, b < 256) : ∀ d ∈ sextets bytes, d < 64 := by
  induction bytes using sextets.induct with
  | case1 a b c bytes ih =>
    simp only [List.forall_mem_cons] at h
    obtain ⟨ha, hb, hc, hbytes⟩ := h
    simp only [sextets, List.forall_mem_cons]
    exact ⟨by omega, by omega, by omega, by omega, ih hbytes⟩
  | case2 a b =>
    simp only [List.forall_mem_cons] at h
    simp only [sextets, List.forall_mem_cons]
    exact ⟨by omega, by omega, by omega, List.forall_mem_nil _⟩
  | case3 a =>
    simp only [List.forall_mem_cons] at h
    simp only [sextets, List.forall_mem_cons]
    exact ⟨by omega, by omega, List.forall_mem_nil _⟩
  | case4 => exact List.forall_mem_nil _

theorem length_sextets_mod (bytes : List ℕ) :
    (sextets bytes).length % 4 = (bytes.length % 3 + (bytes.length % 3 + 2) / 3) := by
  induction bytes using sextets.induct with
  | case1 a b c bytes ih =>
    simp only [sextets, List.length_cons]
    omega
  | case2 a b => simp [sextets]
  | case3 a => simp [sextets]
  | case4 => rfl

/-! ## Characters -/

def alphabet : List Char :=
  "ABCDEFGHIJKLMNOPQRSTUVWXYZabcdefghijklmnopqrstuvwxyz0123456789+/".toList

def digitChar (d : ℕ) : Char := alphabet.getD d 'A'

def digit? (c : Char) : Option ℕ := alphabet.idxOf? c

theorem digit?_digitChar {d : ℕ} (h : d < 64) : digit? (digitChar d) = some d := by
  have hall : ∀ d < 64, digit? (digitChar d) = some d := by decide +kernel
  exact hall d h

/-- What a browser leaves out before it reads: tab, line feed, form feed, carriage return, blank. -/
def isAsciiSpace (c : Char) : Bool := c.toNat ∈ [0x09, 0x0A, 0x0C, 0x0D, 0x20]

theorem digitChar_plain {d : ℕ} (h : d < 64) :
    isAsciiSpace (digitChar d) = false ∧ digitChar d ≠ '=' := by
  have hall : ∀ d < 64, isAsciiSpace (digitChar d) = false ∧ digitChar d ≠ '=' := by
    decide +kernel
  exact hall d h

/-- `btoa(data)`, where `bytes` are the codes of `data`. -/
def btoa (bytes : List ℕ) : List Char :=
  (sextets bytes).map digitChar ++ List.replicate ((3 - bytes.length % 3) % 3) '='

/-- A whole number of groups may end in one or two padding characters. -/
def dropPadding (s : List Char) : List Char :=
  if s.length % 4 = 0 then
    match s.reverse with
    | '=' :: '=' :: front => front.reverse
    | '=' :: front => front.reverse
    | _ => s
  else s

/-- The codes of `atob(data)`; nothing if it throws. -/
def atob (data : List Char) : Option (List ℕ) :=
  let s := dropPadding (data.filter fun c => ¬ isAsciiSpace c)
  if s.length % 4 = 1 then none else (s.mapM digit?).map octets

theorem mapM_digit? {digits : List ℕ} (h : ∀ d ∈ digits, d < 64) :
    (digits.map digitChar).mapM digit? = some digits := by
  induction digits with
  | nil => rfl
  | cons d digits ih =>
    obtain ⟨hd, hdigits⟩ := List.forall_mem_cons.mp h
    rw [List.map_cons, List.mapM_cons, digit?_digitChar hd, ih hdigits]
    rfl

theorem dropPadding_of_not_mem {s : List Char} (h : '=' ∉ s) : dropPadding s = s := by
  have hback : '=' ∉ s.reverse := fun e => h (List.mem_reverse.mp e)
  rw [dropPadding]
  split_ifs with hlen
  · cases hrev : s.reverse with
    | nil => rfl
    | cons c front =>
      have hc : c ≠ '=' := by
        rintro rfl
        rw [hrev] at hback
        exact hback List.mem_cons_self
      split
      · next heq => exact absurd (List.cons.inj heq).1 hc
      · next heq => exact absurd (List.cons.inj heq).1 hc
      · rfl
  · rfl

theorem dropPadding_two {s : List Char} (hlen : s.length % 4 = 2) :
    dropPadding (s ++ ['=', '=']) = s := by
  have hfull : (s ++ ['=', '=']).length % 4 = 0 := by
    rw [List.length_append, Nat.add_mod, hlen]
    rfl
  rw [dropPadding, if_pos hfull, List.reverse_append]
  exact List.reverse_reverse s

theorem dropPadding_one {s : List Char} (h : '=' ∉ s) (hlen : s.length % 4 = 3) :
    dropPadding (s ++ ['=']) = s := by
  have hfull : (s ++ ['=']).length % 4 = 0 := by
    rw [List.length_append, Nat.add_mod, hlen]
    rfl
  have hback : '=' ∉ s.reverse := fun e => h (List.mem_reverse.mp e)
  rw [dropPadding, if_pos hfull, List.reverse_append, List.reverse_singleton,
    List.singleton_append]
  split
  · next front heq =>
    rw [(List.cons.inj heq).2] at hback
    exact absurd List.mem_cons_self hback
  · next front _ heq =>
    rw [← (List.cons.inj heq).2]
    exact List.reverse_reverse s
  · next hne => exact absurd rfl (hne s.reverse)

/-- **Padding to a whole number of groups is dropped.** -/
theorem dropPadding_append {s : List Char} (h : '=' ∉ s) (hlen : s.length % 4 ≠ 1) :
    dropPadding (s ++ List.replicate ((4 - s.length % 4) % 4) '=') = s := by
  obtain h0 | h2 | h3 : s.length % 4 = 0 ∨ s.length % 4 = 2 ∨ s.length % 4 = 3 := by omega
  · rw [h0]
    exact (congrArg dropPadding (List.append_nil s)).trans (dropPadding_of_not_mem h)
  · rw [h2]
    exact dropPadding_two h2
  · rw [h3]
    exact dropPadding_one h h3

/-- **Digits are read**, padded to whole groups. -/
theorem atob_padded {digits : List ℕ} (h : ∀ d ∈ digits, d < 64) (hlen : digits.length % 4 ≠ 1) :
    atob (digits.map digitChar ++ List.replicate ((4 - digits.length % 4) % 4) '=') =
      some (octets digits) := by
  have hplain : ∀ c ∈ digits.map digitChar, isAsciiSpace c = false ∧ c ≠ '=' := by
    intro c hc
    obtain ⟨d, hd, rfl⟩ := List.mem_map.mp hc
    exact digitChar_plain (h d hd)
  have hfilter : (digits.map digitChar ++ List.replicate ((4 - digits.length % 4) % 4) '=').filter
      (fun c => ¬ isAsciiSpace c) =
        digits.map digitChar ++ List.replicate ((4 - digits.length % 4) % 4) '=' := by
    refine List.filter_eq_self.mpr fun c hc => ?_
    rcases List.mem_append.mp hc with hc | hc
    · simp [(hplain c hc).1]
    · rw [List.eq_of_mem_replicate hc]
      decide
  have hdrop := dropPadding_append (s := digits.map digitChar)
    (fun e => (hplain '=' e).2 rfl) (by rwa [List.length_map])
  rw [List.length_map] at hdrop
  rw [atob, hfilter, hdrop]
  simp only [List.length_map]
  rw [if_neg hlen, mapM_digit? h]
  rfl

end BoingObserver.Base64
