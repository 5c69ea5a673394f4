import BoingObserver.Js.Numeral
import BoingObserver.Js.Value

/-!
# Calldata words

`calldataWords`, `wordU128` and `selectorOf` of `tx-decode.ts`: calldata as a
list of 32-byte words in lower-case hex, a word as a 128-bit number, and the
selector byte of the first word.

* `calldataWords_string_eq_some_iff`: the words are the blocks of the text
  without blanks and prefix, whatever its letter case.
* `wordU128_eq_some_iff`: a word reads as `n` exactly when its value is `n` and
  below `2 ^ 128`.
* `selectorOf_cons`: the selector is the value of the first word, when a byte.
-/

namespace BoingObserver.Contract

open Js

/-- `/^[0-9a-f]{64}$/`: a 32-byte word. -/
def IsWord (w : Text) : Prop := w.length = 64 ∧ IsHex w

instance (w : Text) : Decidable (IsWord w) := inferInstanceAs (Decidable (_ ∧ _))

def wordValue (w : Text) : ℕ := numeral 16 w

def wordOf (n : ℕ) : Text := padHex 64 n

theorem isWord_wordOf {n : ℕ} (h : n < 2 ^ 256) : IsWord (wordOf n) :=
  ⟨length_padHex (by omega) (by norm_num at h ⊢; exact h), isHex_padHex 64 n⟩

@[simp] theorem wordValue_wordOf (n : ℕ) : wordValue (wordOf n) = n := numeral_padHex 64 n

theorem wordOf_wordValue {w : Text} (h : IsWord w) : wordOf (wordValue w) = w := by
  have hlt : wordValue w < 2 ^ 256 := by
    have := numeral_lt h.2
    rw [h.1] at this
    exact lt_of_lt_of_le this (by norm_num)
  have hw := isWord_wordOf hlt
  exact numeral_inj hw.2 h.2 (by rw [hw.1, h.1]) (wordValue_wordOf _)

theorem IsWord.ne_nil {w : Text} (h : IsWord w) : w ≠ [] := by
  rintro rfl
  exact absurd h.1 (by decide)

theorem isWord_flatten {ws : List Text} (h : ∀ w ∈ ws, IsWord w) : IsHex ws.flatten := by
  intro c hc
  obtain ⟨w, hw, hc⟩ := List.mem_flatten.mp hc
  exact (h w hw).2 c hc

theorem length_flatten {ws : List Text} (h : ∀ w ∈ ws, IsWord w) :
    ws.flatten.length = 64 * ws.length := by
  induction ws with
  | nil => rfl
  | cons w ws ih =>
    rw [List.flatten_cons, List.length_append, (h w (by simp)).1,
      ih fun v hv => h v (by simp [hv]), List.length_cons]
    ring

/-! ## Splitting calldata -/

/-- Calldata as 32-byte words; `null` unless it is a text of whole words. -/
def calldataWords (calldata : Value) : Option (List Text) :=
  match calldata with
  | .string s =>
    let h := toLowerCase (strip0x (trim s))
    if h.length = 0 ∨ h.length % 64 ≠ 0 ∨ ¬ IsHex h then none else some (chunks 64 h)
  | _ => none

/-- `calldataWords` looks at the trimmed, unprefixed, lower-cased text only. -/
theorem calldataWords_string_eq_some_iff {s : Text} {ws : List Text} :
    calldataWords (.string s) = some ws ↔
      ws ≠ [] ∧ (∀ w ∈ ws, IsWord w) ∧ toLowerCase (strip0x (trim s)) = ws.flatten := by
  simp only [calldataWords]
  generalize toLowerCase (strip0x (trim s)) = h
  constructor
  · intro e
    split_ifs at e with hc
    simp only [not_or, not_not] at hc
    obtain ⟨h0, hmod, hhex⟩ := hc
    obtain ⟨hlen, hflat⟩ := chunks_length_eq (show 0 < 64 by omega) hmod
    rw [Option.some.injEq] at e
    subst e
    refine ⟨?_, fun w hw => ⟨hlen w hw, fun c hc => ?_⟩, hflat.symm⟩
    · intro hnil
      rw [hnil] at hflat
      exact h0 (by rw [← hflat]; rfl)
    · exact hhex c (hflat ▸ List.mem_flatten.mpr ⟨w, hw, hc⟩)
  · rintro ⟨hne, hw, rfl⟩
    have hlen := length_flatten hw
    have hpos := List.length_pos_iff.mpr hne
    rw [if_neg, chunks_flatten (by omega) fun w hm => (hw w hm).1]
    simp only [not_or, not_not]
    exact ⟨by omega, by omega, isWord_flatten hw⟩

theorem isWord_of_calldataWords {v : Value} {ws : List Text} (h : calldataWords v = some ws) :
    ∀ w ∈ ws, IsWord w := by
  cases v with
  | string s => exact (calldataWords_string_eq_some_iff.mp h).2.1
  | _ => simp [calldataWords] at h

/-- **Words survive being written out**, with a `0x` in front. -/
theorem calldataWords_flatten {ws : List Text} (hne : ws ≠ []) (h : ∀ w ∈ ws, IsWord w) :
    calldataWords (.string ('0' :: 'x' :: ws.flatten)) = some ws := by
  have hhex := isWord_flatten h
  have hspace : ∀ c ∈ '0' :: 'x' :: ws.flatten, isSpace c = false := by
    intro c hc
    rcases List.mem_cons.mp hc with rfl | hc
    · decide
    rcases List.mem_cons.mp hc with rfl | hc
    · decide
    · exact isSpace_of_isHexDigit (hhex c hc)
  rw [calldataWords_string_eq_some_iff, trim_eq_self hspace, strip0x_cons_x, hhex.toLowerCase_eq]
  exact ⟨hne, h, rfl⟩

theorem calldataWords_join {ws : List Text} (hne : ws ≠ []) (h : ∀ w ∈ ws, IsWord w) :
    calldataWords (.string ws.flatten) = some ws := by
  have hhex := isWord_flatten h
  rw [calldataWords_string_eq_some_iff, hhex.trim_eq, hhex.strip0x_eq, hhex.toLowerCase_eq]
  exact ⟨hne, h, rfl⟩

/-! ## Words as numbers -/

/-- Word as u128 when the upper 16 bytes are zero, else null. -/
def wordU128 (word : Text) : Option ℕ :=
  if IsWord word ∧ word.take 32 = List.replicate 32 '0' then some (wordValue word) else none

theorem wordU128_of_lt {w : Text} (hw : IsWord w) (h : wordValue w < 2 ^ 128) :
    wordU128 w = some (wordValue w) := by
  have hz := numeral_lt_iff_take hw.2 (k := 32) (by rw [hw.1]; omega)
  rw [hw.1] at hz
  rw [wordU128, if_pos ⟨hw, hz.mp (lt_of_lt_of_le h (by norm_num))⟩]

theorem wordU128_eq_some_iff {w : Text} {n : ℕ} :
    wordU128 w = some n ↔ IsWord w ∧ n < 2 ^ 128 ∧ wordValue w = n := by
  constructor
  · intro e
    rw [wordU128] at e
    split_ifs at e with hc
    have hz := numeral_lt_iff_take hc.1.2 (k := 32) (by rw [hc.1.1]; omega)
    rw [hc.1.1] at hz
    rw [Option.some.injEq] at e
    exact ⟨hc.1, e ▸ lt_of_lt_of_le (hz.mpr hc.2) (by norm_num), e⟩
  · rintro ⟨hw, hlt, rfl⟩
    exact wordU128_of_lt hw hlt

theorem wordU128_eq_none_iff {w : Text} (hw : IsWord w) :
    wordU128 w = none ↔ 2 ^ 128 ≤ wordValue w := by
  constructor
  · intro e
    by_contra hlt
    rw [wordU128_of_lt hw (by omega)] at e
    cases e
  · intro hge
    rw [Option.eq_none_iff_forall_not_mem]
    intro n hn
    obtain ⟨-, hlt, rfl⟩ := wordU128_eq_some_iff.mp hn
    omega

theorem wordU128_wordOf {n : ℕ} (h : n < 2 ^ 128) : wordU128 (wordOf n) = some n := by
  have hw : IsWord (wordOf n) := isWord_wordOf (lt_trans h (by norm_num))
  exact wordU128_eq_some_iff.mpr ⟨hw, h, wordValue_wordOf n⟩

theorem eq_wordOf_of_wordU128 {w : Text} {n : ℕ} (h : wordU128 w = some n) :
    n < 2 ^ 128 ∧ w = wordOf n := by
  obtain ⟨hw, hlt, rfl⟩ := wordU128_eq_some_iff.mp h
  exact ⟨hlt, (wordOf_wordValue hw).symm⟩

/-- The selector byte of the first word, when the 31 bytes above it are zero. -/
def selectorOf (words : List Text) : Option ℕ :=
  match words.head? with
  | none => none
  | some w0 =>
    if w0 ≠ [] ∧ w0.take 62 = List.replicate 62 '0' then some (numeral 16 (w0.drop 62)) else none

theorem selectorOf_cons {w : Text} (hw : IsWord w) (ws : List Text) :
    selectorOf (w :: ws) = if wordValue w < 256 then some (wordValue w) else none := by
  have hz := numeral_lt_iff_take hw.2 (k := 62) (by rw [hw.1]; omega)
  rw [hw.1] at hz
  have hsplit : wordValue w =
      numeral 16 (w.take 62) * 16 ^ 2 + numeral 16 (w.drop 62) := by
    have := numeral_append 16 (w.take 62) (w.drop 62)
    rwa [List.take_append_drop, List.length_drop, hw.1] at this
  by_cases hlt : wordValue w < 256
  · have ht := hz.mp hlt
    rw [ht, numeral_replicate_zero] at hsplit
    simp only [selectorOf, List.head?_cons, ne_eq, hw.ne_nil, not_false_eq_true, ht, and_self,
      if_true, if_pos hlt]
    rw [hsplit]
    simp
  · have ht : ¬ w.take 62 = List.replicate 62 '0' := fun e => hlt (hz.mpr e)
    simp only [selectorOf, List.head?_cons, ht, and_false, if_false, if_neg hlt]

theorem selectorOf_wordOf {n : ℕ} (h : n < 256) (ws : List Text) :
    selectorOf (wordOf n :: ws) = some n := by
  rw [selectorOf_cons (isWord_wordOf (by omega)), wordValue_wordOf, if_pos h]

theorem eq_wordOf_of_selectorOf {w : Text} (hw : IsWord w) {ws : List Text} {sel : ℕ}
    (h : selectorOf (w :: ws) = some sel) : w = wordOf sel := by
  rw [selectorOf_cons hw] at h
  split_ifs at h
  rw [← Option.some.inj h, wordOf_wordValue hw]

end BoingObserver.Contract
