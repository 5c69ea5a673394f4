import BoingObserver.Contract.RoundTrip
import BoingObserver.Js.Coerce

/-!
# Encoding undoes decoding

What `encodeContractCall` of `contract-call-encode.ts` makes of a call that
`decodeContractCall` read.

The decoder has one bound for every numeric word, `2 ^ 128`; the encoder has one
for each declared type.

* `encodeParamWord_argText`: one argument is written back as its word, or refused
  when its value is out of the range of its type.
* `encode_decode`: the words come back iff every value is in range.
-/

namespace BoingObserver.Contract

open Js

/-! ## The texts of a decoded call -/

/-- What a decoded argument is typed as: its value in decimal, its account, or its word. -/
def argText (a : DecodedArg) : Text :=
  match a.value, a.account with
  | some v, _ => intText v
  | none, some id => id
  | none, none => a.word

def AbiParamType.bits : AbiParamType → ℕ
  | .u8 => 8
  | .bool => 1
  | .u64 => 64
  | .u128 => 128
  | _ => 256

def DecodedArg.InRange (a : DecodedArg) : Prop := ∀ v, a.value = some v → v < 2 ^ a.type.bits

/-! ## One argument -/

theorem intWord_decimal (n bits : ℕ) :
    intWord (decimal n) bits = numberWord (decimal n) (decimal n) bits ∧
      bigIntOf (decimal n) = some n := by
  have hdigits := isDigits_decimal n
  have hhex : IsHex (decimal n) := fun c hc => isHexDigit_of_isDigit (hdigits.2 c hc)
  have hne {c : Char} {s : Text} (hc : c.isDigit = false) (hmem : c ∈ s) : decimal n ≠ s := by
    rintro rfl
    rw [hdigits.2 c hmem] at hc
    cases hc
  constructor
  · simp only [intWord, hhex.trim_eq, hhex.toLowerCase_eq]
    rw [if_neg (hne (c := 't') (by decide) (by decide)),
      if_neg (hne (c := 'f') (by decide) (by decide))]
  · have hmark : (decimal n).take 2 ≠ "0x" := by
      intro h
      have hmem : 'x' ∈ (decimal n).take 2 := by
        rw [h]
        decide
      exact absurd (hdigits.2 'x' (List.mem_of_mem_take hmem)) (by decide)
    rw [bigIntOf, if_neg fun h => hmark h.1, if_pos hdigits, numeral_decimal]

theorem intWord_decimal_of_lt {n bits : ℕ} (h : n < 2 ^ bits) :
    intWord (decimal n) bits = .ok (wordOf n) := by
  obtain ⟨hint, hbig⟩ := intWord_decimal n bits
  rw [hint, numberWord, hbig]
  exact if_neg (not_le.mpr h)

theorem intWord_decimal_of_le {n bits : ℕ} (h : 2 ^ bits ≤ n) :
    ∃ e, intWord (decimal n) bits = .error e := by
  obtain ⟨hint, hbig⟩ := intWord_decimal n bits
  rw [hint, numberWord, hbig]
  exact ⟨_, if_pos h⟩

theorem hexWord_eq {w : Text} (h : IsWord w) (label : Text) : hexWord w label = .ok w := by
  simp only [hexWord, h.2.trim_eq, h.2.strip0x_eq, h.2.toLowerCase_eq, if_pos h]

theorem encodeParamWord_eq (p : AbiParam) (raw : Text) :
    encodeParamWord p raw =
      if p.type.isNumeric then intWord raw p.type.bits else hexWord raw p.name := by
  rw [encodeParamWord]
  cases p.type <;> rfl

theorem encodeParamWord_argText {p : AbiParam} {w : Text} (hw : IsWord w)
    (hlt : p.type.isNumeric = true → wordValue w < 2 ^ 128) :
    ((argFrom p.name p.type w).InRange →
      encodeParamWord p (argText (argFrom p.name p.type w)) = .ok w) ∧
    (¬ (argFrom p.name p.type w).InRange →
      ∃ e, encodeParamWord p (argText (argFrom p.name p.type w)) = .error e) := by
  rw [encodeParamWord_eq]
  cases hnum : p.type.isNumeric with
  | true =>
    have hvalue : (argFrom p.name p.type w).value = some (wordValue w : ℤ) := by
      rw [argFrom, hnum, if_pos rfl, wordU128_of_lt hw (hlt hnum)]
      rfl
    have htext : argText (argFrom p.name p.type w) = decimal (wordValue w) := by
      rw [argText, hvalue]
      exact intText_natCast _
    have hrange : (argFrom p.name p.type w).InRange ↔ wordValue w < 2 ^ p.type.bits := by
      rw [DecodedArg.InRange, hvalue]
      simp only [Option.some.injEq, forall_eq']
      exact_mod_cast Iff.rfl
    rw [if_pos rfl, htext, hrange]
    refine ⟨fun h => ?_, fun h => intWord_decimal_of_le (not_lt.mp h)⟩
    rw [intWord_decimal_of_lt h, wordOf_wordValue hw]
  | false =>
    have hvalue : (argFrom p.name p.type w).value = none := by
      rw [argFrom, hnum]
      rfl
    have htext : argText (argFrom p.name p.type w) = w := by
      rw [argText, hvalue, argFrom]
      by_cases hacct : p.type = .account
      · simp only [if_pos hacct]
      · simp only [if_neg hacct]
    rw [if_neg Bool.false_ne_true, htext]
    refine ⟨fun _ => hexWord_eq hw p.name, fun h => absurd (fun v hv => ?_) h⟩
    rw [hvalue] at hv
    cases hv

/-! ## The parameter list -/

theorem encodeParams_argText : ∀ {ps : List AbiParam} {w₀ : Text} {ws : List Text},
    ws.length = ps.length → (∀ w ∈ ws, IsWord w) →
    (∀ a ∈ argsFrom ps (w₀ :: ws), a.type.isNumeric = true → a.value ≠ none) →
    ((∀ a ∈ argsFrom ps (w₀ :: ws), a.InRange) →
      encodeParams ps ((argsFrom ps (w₀ :: ws)).map argText) = .ok ws) ∧
    (¬ (∀ a ∈ argsFrom ps (w₀ :: ws), a.InRange) →
      ∃ e, encodeParams ps ((argsFrom ps (w₀ :: ws)).map argText) = .error e)
  | [], _, ws, hlen, _, _ => by
    obtain rfl := List.length_eq_zero_iff.mp hlen
    exact ⟨fun _ => rfl, fun h => absurd (fun a ha => by cases ha) h⟩
  | p :: ps, _, [], hlen, _, _ => by cases hlen
  | p :: ps, w₀, w :: ws, hlen, hw, hvalues => by
    have hargs : argsFrom (p :: ps) (w₀ :: w :: ws) =
      argFrom p.name p.type w :: argsFrom ps (w :: ws) := rfl
    rw [hargs] at hvalues ⊢
    obtain ⟨hword, hwords⟩ := List.forall_mem_cons.mp hw
    obtain ⟨hvalue, hvalues⟩ := List.forall_mem_cons.mp hvalues
    have hlt : p.type.isNumeric = true → wordValue w < 2 ^ 128 := by
      intro hnum
      by_contra hge
      refine hvalue hnum ?_
      rw [argFrom, hnum, if_pos rfl, (wordU128_eq_none_iff hword).mpr (not_lt.mp hge)]
      rfl
    obtain ⟨hok, herror⟩ := encodeParamWord_argText hword hlt
    obtain ⟨hoks, herrors⟩ := encodeParams_argText (Nat.succ.inj hlen) hwords hvalues
    rw [List.forall_mem_cons, List.map_cons, encodeParams, List.headD_cons, List.tail_cons]
    by_cases hrange : (argFrom p.name p.type w).InRange
    · rw [hok hrange]
      refine ⟨fun h => by rw [hoks h.2]; rfl, fun h => ?_⟩
      obtain ⟨e, he⟩ := herrors fun hall => h ⟨hrange, hall⟩
      rw [he]
      exact ⟨e, rfl⟩
    · obtain ⟨e, he⟩ := herror hrange
      rw [he]
      exact ⟨fun h => absurd h.1 hrange, fun _ => ⟨e, rfl⟩⟩

/-! ## Decoded calls -/

theorem table_of_decodes {contract : Text} {words : List Text} {call : DecodedCall}
    (h : Decodes contract words call) (hcr : call.interfaceId ≠ "custody-router")
    (hlr : call.interfaceId ≠ "ledger-router") :
    ∃ iface f, contractInterfaces.lookup call.interfaceId = some iface ∧ f ∈ iface.functions ∧
      calls words f = true ∧ call = TableCall call.interfaceId contract f words := by
  cases h with
  | table hid hf hc => exact ⟨_, _, hid, hf, hc, rfl⟩
  | custodyRouter hd =>
    obtain ⟨n, hops, -, -, -, -, -, rfl⟩ := decodeCustodyRouter_eq_some hd
    exact absurd rfl hcr
  | ledgerRouter hid hc => exact absurd rfl hlr

/-- The call form of the decoded function builds the words of the calldata from the arguments as
they were read, or refuses them when a value is out of the range of its type. -/
def ReEncodes (input : CallInput) (call : DecodedCall) : Prop :=
  ∃ iface f words, contractInterfaces.lookup call.interfaceId = some iface ∧
    f ∈ iface.functions ∧ f.kind = .write ∧ call.fn = ⟨f.selector, f.name⟩ ∧
    calldataWords input.calldata = some words ∧
    ((∀ a ∈ call.args, a.InRange) →
      encodeContractCall f.selector f.params (call.args.map argText) =
        .ok ("0x" ++ words.flatten)) ∧
    (¬ (∀ a ∈ call.args, a.InRange) →
      ∃ e, encodeContractCall f.selector f.params (call.args.map argText) = .error e)

/-- **Encode undoes decode where the values are in range**, and refuses where one is not. -/
theorem encode_decode {input : CallInput} {call : DecodedCall}
    (h : decodeContractCall input = .ok (some call)) (hcr : call.interfaceId ≠ "custody-router")
    (hlr : call.interfaceId ≠ "ledger-router")
    (hvalues : ∀ a ∈ call.args, a.type.isNumeric = true → a.value ≠ none) :
    (∀ a ∈ call.args, ∀ v, a.value = some v → 0 ≤ v ∧ v < 2 ^ 128) ∧ ReEncodes input call := by
  obtain ⟨words, hc, hcall⟩ := decodeContractCall_cases h
  have hw := isWord_of_calldataWords hc
  obtain ⟨iface, f, hid, hf, hcalls, heq⟩ := table_of_decodes hcall hcr hlr
  refine ⟨fun a ha v hv => ?_, iface, f, words, hid, hf, ?_, ?_, hc, ?_⟩
  · rw [heq] at ha
    obtain ⟨p, -, w, -, rfl⟩ := mem_argsFrom ha
    rw [argFrom] at hv
    dsimp only at hv
    split_ifs at hv
    obtain ⟨n, hn, rfl⟩ := Option.map_eq_some_iff.mp hv
    have hlt := (wordU128_eq_some_iff.mp hn).2.1
    have hint : (n : ℤ) < 2 ^ 128 := by exact_mod_cast hlt
    exact ⟨Int.natCast_nonneg n, hint⟩
  · simp only [calls, decide_eq_true_eq] at hcalls
    exact hcalls.2.2
  · rw [heq]
    rfl
  · obtain ⟨ws, rfl, hlen⟩ := words_of_calls hw hcalls
    have hargs : call.args = argsFrom f.params (wordOf f.selector :: ws) := by
      rw [heq]
      rfl
    rw [hargs] at hvalues ⊢
    obtain ⟨hok, herror⟩ := encodeParams_argText hlen (List.forall_mem_cons.mp hw).2 hvalues
    rw [encodeContractCall]
    refine ⟨fun hrange => ?_, fun hrange => ?_⟩
    · rw [hok hrange]
      rfl
    · obtain ⟨e, he⟩ := herror hrange
      rw [he]
      exact ⟨e, rfl⟩

/-! ## A deadline -/

/-- `poolCustody[0].params` -/
def swapParams : List AbiParam :=
  [u128 "direction" (some "0 = A to B, 1 = B to A"), u128 "amount_in", u128 "min_out", deadline]

def deadlineWords (block : ℕ) : List Text :=
  [wordOf 0x10, wordOf 0, wordOf 5, wordOf 1, wordOf block]

def deadlineInput (block : ℕ) : CallInput where
  contract := "ab"
  calldata := .string ("0x" ++ (deadlineWords block).flatten)
  interfaceId := some "pool-custody"

def deadlineCall (block : ℕ) : DecodedCall where
  interfaceId := "pool-custody"
  contract := "ab"
  fn := ⟨0x10, "swap"⟩
  args := argsFrom swapParams (deadlineWords block)

set_option maxRecDepth 4000 in
/-- A deadline in range. -/
theorem encode_decode_deadline :
    (∀ a ∈ (deadlineCall 9).args, ∀ v, a.value = some v → 0 ≤ v ∧ v < 2 ^ 128) ∧
      ReEncodes (deadlineInput 9) (deadlineCall 9) := by
  have hdecode : decodeContractCall (deadlineInput 9) = .ok (some (deadlineCall 9)) := rfl
  exact encode_decode hdecode (by decide) (by decide) (by decide +kernel)

set_option maxRecDepth 4000 in
/-- **A deadline of `2 ^ 64` is read, and refused.** -/
theorem lateDeadline_refused :
    decodeContractCall (deadlineInput (2 ^ 64)) = .ok (some (deadlineCall (2 ^ 64))) ∧
      (∀ a ∈ (deadlineCall (2 ^ 64)).args, a.type.isNumeric = true → a.value ≠ none) ∧
      ¬ (∀ a ∈ (deadlineCall (2 ^ 64)).args, a.InRange) ∧
      ∃ e, encodeContractCall 0x10 swapParams ((deadlineCall (2 ^ 64)).args.map argText) =
        .error e := by
  refine ⟨rfl, by decide +kernel, fun h => ?_, _, rfl⟩
  have hlast : argFrom "deadline" .u64 (wordOf (2 ^ 64)) ∈ (deadlineCall (2 ^ 64)).args :=
    List.mem_of_getElem? (i := 3) rfl
  exact absurd (h _ hlast (2 ^ 64) rfl) (by decide)

end BoingObserver.Contract
