import BoingObserver.Contract.Interfaces
import BoingObserver.Contract.Word

/-!
# Encoding a contract call

`contract-call-encode.ts`: the words a call form builds from the texts typed into
it.  `Denotes raw n` says which integer a text spells, independently of the
encoder, and `intWord_eq_ok` says the encoder writes the word of that integer.
-/

namespace BoingObserver.Contract

open Js

/-- `BigInt(s)` for a text of the form `/^(0x[0-9a-f]+|\d+)$/`. -/
def bigIntOf (s : Text) : Option ℕ :=
  if s.take 2 = "0x" ∧ s.drop 2 ≠ [] ∧ IsHex (s.drop 2) then some (numeral 16 (s.drop 2))
  else if IsDigits s then some (numeral 10 s)
  else none

/-- The part of `intWord` after `true` and `false` are replaced. -/
def numberWord (raw s : Text) (maxBits : ℕ) : Except JsError Text :=
  match bigIntOf s with
  | none => .error (.error ("\"" ++ raw ++ "\" is not a number"))
  | some v =>
    if v ≥ 2 ^ maxBits then
      .error (.error (raw ++ " does not fit in " ++ decimal maxBits ++ " bits"))
    else .ok (wordOf v)

/-- 32-byte word, big-endian, from a decimal / 0x-hex integer (u8 / u64 / u128 / bool). -/
def intWord (raw : Text) (maxBits : ℕ) : Except JsError Text :=
  let s := toLowerCase (trim raw)
  if s = "true" then numberWord "1" "1" maxBits
  else if s = "false" then numberWord "0" "0" maxBits
  else numberWord raw s maxBits

def hexWord (raw label : Text) : Except JsError Text :=
  let h := toLowerCase (strip0x (trim raw))
  if IsWord h then .ok h
  else .error (.error (label ++ " must be 32 bytes of hex (64 characters)"))

def encodeParamWord (p : AbiParam) (raw : Text) : Except JsError Text :=
  match p.type with
  | .account => hexWord raw p.name
  | .bytes32 => hexWord raw p.name
  | .u8 => intWord raw 8
  | .u64 => intWord raw 64
  | .bool => intWord raw 1
  | .u128 => intWord raw 128

/-- One word per parameter; a missing value is the empty text. -/
def encodeParams : List AbiParam → List Text → Except JsError (List Text)
  | [], _ => .ok []
  | p :: ps, values => do
    let w ← encodeParamWord p (values.headD [])
    let ws ← encodeParams ps values.tail
    return w :: ws

/-- Reference layout: word 0 = selector in the low byte, then one 32-byte word per parameter. -/
def encodeContractCall (selector : ℕ) (params : List AbiParam) (values : List Text) :
    Except JsError Text := do
  let ws ← encodeParams params values
  return "0x" ++ wordOf selector ++ ws.flatten

/-! ## The integer a text denotes -/

/-- The integer a text spells: decimal, `0x` hex, `true` or `false`, surrounding blanks and
letter case ignored. -/
inductive Denotes (raw : Text) : ℕ → Prop
  | true : toLowerCase (trim raw) = "true" → Denotes raw 1
  | false : toLowerCase (trim raw) = "false" → Denotes raw 0
  | hex {ds : Text} : toLowerCase (trim raw) = '0' :: 'x' :: ds → ds ≠ [] → IsHex ds →
      Denotes raw (numeral 16 ds)
  | decimal : toLowerCase (trim raw) ≠ [] → (∀ c ∈ toLowerCase (trim raw), c.isDigit) →
      Denotes raw (numeral 10 (toLowerCase (trim raw)))

theorem bigIntOf_eq_some {s : Text} {n : ℕ} (h : bigIntOf s = some n) :
    (∃ ds, s = '0' :: 'x' :: ds ∧ ds ≠ [] ∧ IsHex ds ∧ n = numeral 16 ds) ∨
      (s ≠ [] ∧ (∀ c ∈ s, c.isDigit) ∧ n = numeral 10 s) := by
  rw [bigIntOf] at h
  split_ifs at h with h1 h2
  · left
    refine ⟨s.drop 2, ?_, h1.2.1, h1.2.2, (Option.some.inj h).symm⟩
    calc s = s.take 2 ++ s.drop 2 := (List.take_append_drop 2 s).symm
      _ = '0' :: 'x' :: s.drop 2 := by rw [h1.1]; rfl
  · exact Or.inr ⟨h2.1, h2.2, (Option.some.inj h).symm⟩

theorem numberWord_eq_ok {raw s w : Text} {maxBits : ℕ} (h : numberWord raw s maxBits = .ok w) :
    ∃ n, bigIntOf s = some n ∧ n < 2 ^ maxBits ∧ w = wordOf n := by
  rw [numberWord] at h
  cases hb : bigIntOf s with
  | none => rw [hb] at h; cases h
  | some v =>
    rw [hb] at h
    simp only at h
    split_ifs at h with hv
    exact ⟨v, rfl, not_le.mp hv, (Except.ok.inj h).symm⟩

/-- **What `intWord` accepts it writes as the word of the integer the text denotes.** -/
theorem intWord_eq_ok {raw w : Text} {maxBits : ℕ} (h : intWord raw maxBits = .ok w) :
    ∃ n, Denotes raw n ∧ n < 2 ^ maxBits ∧ w = wordOf n := by
  simp only [intWord] at h
  split_ifs at h with ht hf
  · obtain ⟨n, hb, hn, hw⟩ := numberWord_eq_ok h
    obtain rfl : 1 = n := Option.some.inj hb
    exact ⟨1, .true ht, hn, hw⟩
  · obtain ⟨n, hb, hn, hw⟩ := numberWord_eq_ok h
    obtain rfl : 0 = n := Option.some.inj hb
    exact ⟨0, .false hf, hn, hw⟩
  · obtain ⟨n, hb, hn, hw⟩ := numberWord_eq_ok h
    rcases bigIntOf_eq_some hb with ⟨ds, hs, hne, hhex, rfl⟩ | ⟨hne, hd, rfl⟩
    · exact ⟨_, .hex hs hne hhex, hn, hw⟩
    · exact ⟨_, .decimal hne hd, hn, hw⟩

theorem hexWord_eq_ok {raw label w : Text} (h : hexWord raw label = .ok w) :
    IsWord w ∧ w = toLowerCase (strip0x (trim raw)) := by
  simp only [hexWord] at h
  split_ifs at h with hw
  obtain rfl := Except.ok.inj h
  exact ⟨hw, rfl⟩

end BoingObserver.Contract
