import BoingObserver.Js.Coerce

/-!
# Hexadecimal ids

The normalisations of `rpc-types.ts`: whatever shape an account or hash comes in
(a text with or without `0x`, an array of byte numbers), its 64 hex digits.
-/

namespace BoingObserver.Rpc

open Js

section

variable (nt : NumberText)

/-- Any RPC value as a text; byte arrays in hex. -/
def toSafeHexString (value : Value) : Text :=
  match value with
  | .undefined => []
  | .null => []
  | .string s => trim s
  | .number x => nt.hex x
  | .array items =>
    match Value.asNumbers? items with
    | some xs => "0x" ++ xs.flatMap nt.hexByte
    | none => trim (nt.stringOf (.array items))
  | v => trim (nt.stringOf v)

/-- Normalize hex for links: strip `0x` and lower-case.  Safe for any RPC value. -/
def hexForLink (value : Value) : Text :=
  let s := toSafeHexString nt value
  toLowerCase (if s.take 2 = "0x" then s.drop 2 else s)

end

/-- Strip an optional `0x` prefix and trim white space. -/
def stripHexPrefix (value : Text) : Text := strip0x (trim value)

/-- `/^[0-9a-fA-F]{64}$/` -/
def isAnyWord (s : Text) : Bool := s.length = 64 && s.all isAnyHexDigit

/-- 32 bytes of hex, with or without `0x`. -/
def isHex64 (value : Text) : Bool := isAnyWord (stripHexPrefix value)

/-- Normalize a 32-byte hex input; empty if invalid. -/
def normalizeHex64 (value : Text) : Text :=
  let hex := stripHexPrefix value
  if isAnyWord hex then toLowerCase hex else []

/-- `typeof h === "string" ? h.replace(/^0x/i, "").toLowerCase() : ""` -/
def h64 (h : Value) : Text :=
  match h with
  | .string s => toLowerCase (strip0x s)
  | _ => []

theorem isAnyHexDigit_iff {c : Char} : isAnyHexDigit c = true ↔
    (48 ≤ c.toNat ∧ c.toNat ≤ 57) ∨ (97 ≤ c.toNat ∧ c.toNat ≤ 102) ∨
      (65 ≤ c.toNat ∧ c.toNat ≤ 70) := by
  rw [isAnyHexDigit, Bool.or_eq_true, isHexDigit_iff, Bool.and_eq_true, decide_eq_true_iff,
    decide_eq_true_iff, or_assoc]
  exact Iff.rfl

theorem isSpace_of_isAnyHexDigit {c : Char} (h : isAnyHexDigit c = true) : isSpace c = false := by
  rw [isAnyHexDigit_iff] at h
  exact isSpace_of_printable (by omega) (by omega)

theorem ne_x_of_isAnyHexDigit {c : Char} (h : isAnyHexDigit c = true) : c ≠ 'x' ∧ c ≠ 'X' := by
  refine ⟨?_, ?_⟩
  · rintro rfl
    exact absurd h (by decide)
  · rintro rfl
    exact absurd h (by decide)

theorem isAnyHexDigit_of_lowerChar {c : Char} (h : isHexDigit (lowerChar c) = true) :
    isAnyHexDigit c = true := by
  rw [lowerChar] at h
  split_ifs at h with hupper hk
  · have ha : 65 ≤ c.toNat := hupper.1
    have hz : c.toNat ≤ 90 := hupper.2
    rw [isHexDigit_iff, toNat_ofNat_of_lt (by omega)] at h
    rw [isAnyHexDigit_iff]
    omega
  · exact absurd h (by decide)
  · rw [isAnyHexDigit, h, Bool.true_or]

/-- **A 32-byte hex word is normalized to its lower-case digits.** -/
theorem normalizeHex64_of_isAnyWord {s : Text} (h : isAnyWord s = true) :
    normalizeHex64 s = toLowerCase s := by
  have hdigits : ∀ c ∈ s, isAnyHexDigit c = true :=
    List.all_eq_true.mp (Bool.and_eq_true_iff.mp h).2
  have htrim : trim s = s := trim_eq_self fun c hc => isSpace_of_isAnyHexDigit (hdigits c hc)
  have hstrip : strip0x s = s := strip0x_eq_self fun c hc => ne_x_of_isAnyHexDigit (hdigits c hc)
  rw [normalizeHex64, stripHexPrefix, htrim, hstrip, if_pos h]

theorem isHexDigit_lowerChar {c : Char} (h : isAnyHexDigit c = true) :
    isHexDigit (lowerChar c) = true := by
  have hall : ∀ n < 103, isAnyHexDigit (Char.ofNat n) = true →
      isHexDigit (lowerChar (Char.ofNat n)) = true := by decide
  have hlt : c.toNat < 103 := by
    rcases isAnyHexDigit_iff.mp h with h | h | h <;> omega
  rw [← Char.ofNat_toNat c] at h ⊢
  exact hall c.toNat hlt h

theorem isHex_normalizeHex64 {s : Text} (h : normalizeHex64 s ≠ []) :
    (normalizeHex64 s).length = 64 ∧ IsHex (normalizeHex64 s) := by
  rw [normalizeHex64] at h ⊢
  split_ifs at h ⊢ with hword
  · obtain ⟨hlen, hdigits⟩ := Bool.and_eq_true_iff.mp hword
    refine ⟨(List.length_map _).trans (of_decide_eq_true hlen), fun c hc => ?_⟩
    obtain ⟨d, hd, rfl⟩ := List.mem_map.mp hc
    exact isHexDigit_lowerChar (List.all_eq_true.mp hdigits d hd)
  · exact absurd rfl h

end BoingObserver.Rpc
