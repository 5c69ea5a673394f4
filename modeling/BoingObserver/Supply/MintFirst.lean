import BoingObserver.Contract.Describe
import BoingObserver.Contract.Encodings
import BoingObserver.Deploy.Receipt

/-!
# The initial mint

`parseMintFirstFromCalldata` of `fungible-mint-supply.ts` against the decoder of
`tx-decode.ts`.

The parser drops what is no hex digit, reads the selector from byte 31 and takes any
calldata of 96 bytes or more; the decoder wants three whole words.

* `parseMintFirst_digits`: what the parser makes of the digits it sees.
* `decodesMint_iff`: what the decoder makes of the calldata.
* `mintFirst_agree_iff`: when the two agree.
-/

namespace BoingObserver.Supply

open Js Rpc Contract Deploy

/-! ## The parser -/

section

variable (nt : NumberText)

structure MintFirstDecoded where
  to' : Text
  amount : Text

/-- `REF_FUNGIBLE_SELECTOR_MINT_FIRST` -/
def mintFirstSelector : ℕ := 0x02

/-- Decode reference `mint_first(to, amount)` calldata (96 bytes). -/
def parseMintFirstFromCalldata (calldata : Value) : Option MintFirstDecoded :=
  let data := normalizeHexData nt calldata
  if data.bytes < 96 then none
  else
    let h := toLowerCase (data.prefixed.drop 2)
    if numeral 16 (slice h 62 64) ≠ mintFirstSelector then none
    else
      let dest := normalizeHex64 (slice h 64 128)
      if dest = [] then none
      else
        let amountWord := slice h 128 192
        if IsWord amountWord then some ⟨dest, decimal (numeral 16 amountWord)⟩ else none

end

/-! ## What the parser makes of digits -/

def hexDigits (nt : NumberText) (value : Value) : Text :=
  let s := toSafeHexString nt value
  toLowerCase ((if s.take 2 = "0x" then s.drop 2 else s).filter isAnyHexDigit)

theorem normalizeHexData_eq (nt : NumberText) (value : Value) :
    normalizeHexData nt value =
      if hexDigits nt value = [] then ⟨[], 0⟩
      else ⟨"0x" ++ hexDigits nt value, (hexDigits nt value).length / 2⟩ := by
  simp only [normalizeHexData, hexDigits, toLowerCase, List.map_eq_nil_iff, List.length_map]

/-- At least 96 bytes, of which byte 31 is the selector. -/
def LooksMint (h : Text) : Prop := 192 ≤ h.length ∧ slice h 62 64 = "02"

instance (h : Text) : Decidable (LooksMint h) := inferInstanceAs (Decidable (_ ∧ _))

def mintOf (h : Text) : MintFirstDecoded :=
  ⟨slice h 64 128, decimal (wordValue (slice h 128 192))⟩

theorem IsHex.slice {h : Text} (hh : IsHex h) (a b : ℕ) : IsHex (slice h a b) :=
  (hh.drop a).take (b - a)

theorem isWord_slice {h : Text} (hh : IsHex h) {a b : ℕ} (hab : b = a + 64) (hb : b ≤ h.length) :
    IsWord (slice h a b) := by
  refine ⟨?_, IsHex.slice hh a b⟩
  rw [Js.slice, List.length_take, List.length_drop]
  omega

/-- **What the parser makes of the digits it sees.** -/
theorem parseMintFirst_digits {nt : NumberText} {calldata : Value} {h : Text}
    (hdigits : hexDigits nt calldata = h) (hh : IsHex h) :
    parseMintFirstFromCalldata nt calldata = if LooksMint h then some (mintOf h) else none := by
  simp only [parseMintFirstFromCalldata, normalizeHexData_eq, hdigits]
  by_cases hnil : h = []
  · subst hnil
    rfl
  rw [if_neg hnil]
  by_cases hlen : h.length / 2 < 96
  · rw [if_pos hlen, if_neg fun hl => by have := hl.1; omega]
  have hlower : toLowerCase (("0x" ++ h).drop 2) = h := hh.toLowerCase_eq
  have h192 : 192 ≤ h.length := by omega
  have hsel : numeral 16 (slice h 62 64) = mintFirstSelector ↔ slice h 62 64 = "02" := by
    have hbyte : (slice h 62 64).length = 2 := by
      rw [Js.slice, List.length_take, List.length_drop]
      omega
    refine ⟨fun e => numeral_inj (IsHex.slice hh 62 64) (by decide) hbyte ?_, fun e => ?_⟩
    · rw [e]
      rfl
    · rw [e]
      rfl
  have hword : IsWord (slice h 64 128) := isWord_slice hh rfl (by omega)
  have hdest : normalizeHex64 (slice h 64 128) = slice h 64 128 :=
    normalizeHex64_word hword.2 hword.1
  have hne : slice h 64 128 ≠ [] := hword.ne_nil
  rw [if_neg hlen, hlower, hdest]
  by_cases h02 : slice h 62 64 = "02"
  · rw [if_neg (not_not.mpr (hsel.mpr h02)), if_neg hne,
      if_pos (isWord_slice hh rfl h192), if_pos ⟨h192, h02⟩]
    rfl
  · rw [if_pos (mt hsel.mp h02), if_neg fun hl => h02 hl.2]

/-! ## The digits of a calldata text -/

/-- A text of hex digits in any letter case, with or without a `0x` or `0X`. -/
def IsHexText (s : Text) : Prop := IsHex (toLowerCase (strip0x s))

instance (s : Text) : Decidable (IsHexText s) := inferInstanceAs (Decidable (IsHex _))

/-- The parser knows the prefix `0x` only: of a `0X` it keeps the `0`. -/
theorem hexDigits_string (nt : NumberText) {s : Text} (hs : IsHexText s) :
    hexDigits nt (.string s) =
      if s.take 2 = ['0', 'X'] then '0' :: toLowerCase (strip0x s)
      else toLowerCase (strip0x s) := by
  have htrim : trim s = s := trim_eq_self_of_isHex hs
  have hfilter {t : Text} (ht : IsHex (toLowerCase t)) : t.filter isAnyHexDigit = t :=
    List.filter_eq_self.mpr fun c hc =>
      isAnyHexDigit_of_lowerChar (ht _ (List.mem_map.mpr ⟨c, hc, rfl⟩))
  simp only [hexDigits, toSafeHexString, htrim]
  by_cases hx : s.take 2 = ("0x" : Text)
  · have hstrip : strip0x s = s.drop 2 := if_pos (Or.inl hx)
    have hno : s.take 2 ≠ ['0', 'X'] := by
      rw [hx]
      decide
    rw [IsHexText, hstrip] at hs
    rw [if_pos hx, if_neg hno, hstrip, hfilter hs]
  rw [if_neg hx]
  by_cases hX : s.take 2 = ['0', 'X']
  · have hstrip : strip0x s = s.drop 2 := if_pos (Or.inr hX)
    have hsplit : s = '0' :: 'X' :: s.drop 2 := by
      conv_lhs => rw [← List.take_append_drop 2 s, hX]
      rfl
    rw [IsHexText, hstrip] at hs
    have hkeep : s.filter isAnyHexDigit = '0' :: s.drop 2 := by
      conv_lhs => rw [hsplit]
      rw [List.filter_cons_of_pos (by decide), List.filter_cons_of_neg (by decide), hfilter hs]
    rw [if_pos hX, hstrip, hkeep]
    rfl
  · have hstrip : strip0x s = s := if_neg fun h => h.elim hx hX
    rw [IsHexText, hstrip] at hs
    rw [if_neg hX, hstrip, hfilter hs]

/-! ## What the decoder makes of calldata -/

/-- Three words: the selector, the recipient, and an amount below `2 ^ 128`. -/
def IsMint (h : Text) : Prop :=
  h.length = 192 ∧ h.take 64 = wordOf 2 ∧ wordValue (slice h 128 192) < 2 ^ 128

instance (h : Text) : Decidable (IsMint h) := inferInstanceAs (Decidable (_ ∧ _ ∧ _))

def argValue (call : DecodedCall) (name : Text) : Option ℤ :=
  (call.args.find? fun a => a.name = name).bind (·.value)

/-- The calldata is decoded as `mint_first`, with this recipient and amount. -/
def DecodesMint (input : CallInput) (m : MintFirstDecoded) : Prop :=
  ∃ call v, decodeContractCall input = .ok (some call) ∧ call.fn.name = "mint_first" ∧
    argAcct call "to" = some m.to' ∧ argValue call "amount" = some v ∧ m.amount = intText v

theorem decodeContractCall_fungibleV1 (contract s : Text) (isPool : Bool) :
    decodeContractCall ⟨contract, .string s, some "fungible-v1", isPool⟩ =
      .ok ((calldataWords (.string s)).bind fun words =>
        decodeWithFunctions "fungible-v1" (toLowerCase (strip0x contract)) words fungibleV1) := by
  rw [decodeContractCall_declared (by decide) (by decide)]
  cases calldataWords (.string s) <;> rfl

theorem chunks_three {h : Text} (hlen : h.length = 192) :
    chunks 64 h = [h.take 64, slice h 64 128, slice h 128 192] := by
  rw [chunks, hlen]
  rfl

/-- **Calldata is decoded as `mint_first` iff it is three words of that form.** -/
theorem decodeWithFunctions_mint_iff {words : List Text} (hw : ∀ w ∈ words, IsWord w)
    (contract : Text) {dest : Text} {v : ℤ} :
    (∃ call, decodeWithFunctions "fungible-v1" contract words fungibleV1 = some call ∧
      call.fn.name = "mint_first" ∧ argAcct call "to" = some dest ∧
      argValue call "amount" = some v) ↔
    ∃ amount, words = [wordOf 2, dest, amount] ∧ wordValue amount < 2 ^ 128 ∧
      v = wordValue amount := by
  constructor
  · rintro ⟨call, hcall, hname, hto, hamount⟩
    obtain ⟨f, hf, hcalls, rfl⟩ := decodeWithFunctions_eq_some hcall
    obtain ⟨ws, rfl, hlen⟩ := words_of_calls hw hcalls
    rcases List.mem_pair.mp hf with rfl | rfl
    · have hne : ("transfer" : Text) ≠ "mint_first" := by decide
      exact absurd hname hne
    · obtain ⟨w₁, w₂, rfl⟩ := List.length_eq_two.mp hlen
      obtain rfl : w₁ = dest := Option.some.inj hto
      have hvalue : (wordU128 w₂).map Int.ofNat = some v := hamount
      obtain ⟨n, hn, rfl⟩ := Option.map_eq_some_iff.mp hvalue
      obtain ⟨-, hlt, rfl⟩ := wordU128_eq_some_iff.mp hn
      exact ⟨w₂, rfl, hlt, rfl⟩
  · rintro ⟨amount, rfl, hlt, rfl⟩
    have hword : IsWord amount := hw amount (by simp)
    have hsel : selectorOf [wordOf 2, dest, amount] = some 2 := selectorOf_wordOf (by omega) _
    have hfind : decodeWithFunctions "fungible-v1" contract [wordOf 2, dest, amount] fungibleV1 =
        some (TableCall "fungible-v1" contract (fungibleV1.getLast (by decide))
          [wordOf 2, dest, amount]) := by
      simp [decodeWithFunctions, fungibleV1, calls, hsel, TableCall]
    refine ⟨_, hfind, rfl, rfl, ?_⟩
    have hvalue : argValue (TableCall "fungible-v1" contract (fungibleV1.getLast (by decide))
        [wordOf 2, dest, amount]) "amount" = (wordU128 amount).map Int.ofNat := rfl
    rw [hvalue, wordU128_of_lt hword hlt]
    rfl

/-- **What the decoder makes of the calldata.** -/
theorem decodesMint_iff {s : Text} (hs : IsHexText s) (contract : Text) (isPool : Bool)
    (m : MintFirstDecoded) :
    DecodesMint ⟨contract, .string s, some "fungible-v1", isPool⟩ m ↔
      IsMint (toLowerCase (strip0x s)) ∧ m = mintOf (toLowerCase (strip0x s)) := by
  have htrim : trim s = s := trim_eq_self_of_isHex hs
  constructor
  · rintro ⟨call, v, hdecode, hname, hto, hamount, hm⟩
    rw [decodeContractCall_fungibleV1, Except.ok.injEq, Option.bind_eq_some_iff] at hdecode
    obtain ⟨words, hwords, hcall⟩ := hdecode
    obtain ⟨-, hw, htext⟩ := calldataWords_string_eq_some_iff.mp hwords
    obtain ⟨amount, rfl, hlt, rfl⟩ :=
      (decodeWithFunctions_mint_iff hw _).mp ⟨call, hcall, hname, hto, hamount⟩
    rw [htrim] at htext
    have hlen : (toLowerCase (strip0x s)).length = 192 := by
      rw [htext, length_flatten hw]
      rfl
    have hchunks := chunks_three hlen
    rw [htext, chunks_flatten (by omega) fun w h => (hw w h).1, ← htext] at hchunks
    obtain ⟨h₀, h₁, h₂⟩ : wordOf 2 = (toLowerCase (strip0x s)).take 64 ∧
        m.to' = slice (toLowerCase (strip0x s)) 64 128 ∧
        amount = slice (toLowerCase (strip0x s)) 128 192 := by
      simpa using hchunks
    refine ⟨⟨hlen, h₀.symm, h₂ ▸ hlt⟩, ?_⟩
    obtain ⟨dest, shown⟩ := m
    obtain rfl : shown = intText (wordValue amount) := hm
    rw [mintOf, ← h₂, ← intText_natCast, ← h₁]
  · rintro ⟨⟨hlen, hsel, hlt⟩, rfl⟩
    have hchunks := chunks_three hlen
    obtain ⟨hcut, hflat⟩ := chunks_length_eq (show 0 < 64 by omega)
      (show (toLowerCase (strip0x s)).length % 64 = 0 by rw [hlen])
    rw [hchunks, hsel] at hcut hflat
    have hw : ∀ w ∈ [wordOf 2, slice (toLowerCase (strip0x s)) 64 128,
        slice (toLowerCase (strip0x s)) 128 192], IsWord w := fun w h =>
      ⟨hcut w h, fun c hc => hs c (hflat ▸ List.mem_flatten.mpr ⟨w, h, hc⟩)⟩
    obtain ⟨call, hcall, hname, hto, hamount⟩ :=
      (decodeWithFunctions_mint_iff hw (toLowerCase (strip0x contract))).mpr ⟨_, rfl, hlt, rfl⟩
    refine ⟨call, _, ?_, hname, hto, hamount, (intText_natCast _).symm⟩
    rw [decodeContractCall_fungibleV1, Except.ok.injEq, Option.bind_eq_some_iff]
    refine ⟨_, calldataWords_string_eq_some_iff.mpr ⟨List.cons_ne_nil _ _, hw, ?_⟩, hcall⟩
    rw [htrim, hflat]

/-! ## When the two agree -/

def MintsAgree (nt : NumberText) (contract s : Text) (isPool : Bool) : Prop :=
  ∀ m, parseMintFirstFromCalldata nt (.string s) = some m ↔
    DecodesMint ⟨contract, .string s, some "fungible-v1", isPool⟩ m

/-- What looks like a mint is one; behind a `0X` there is neither. -/
def MintWellFormed (s : Text) : Prop :=
  if s.take 2 = ['0', 'X'] then
    ¬ IsMint (toLowerCase (strip0x s)) ∧ ¬ LooksMint ('0' :: toLowerCase (strip0x s))
  else LooksMint (toLowerCase (strip0x s)) → IsMint (toLowerCase (strip0x s))

theorem agree_iff {α : Type} {a : α} {p q : Prop} [Decidable p] :
    (∀ m, (if p then some a else none) = some m ↔ q ∧ m = a) ↔ (p ↔ q) := by
  constructor
  · intro h
    rw [← and_iff_left (a := q) (rfl : a = a), ← h a]
    by_cases hp : p
    · rw [if_pos hp]
      exact iff_of_true hp rfl
    · rw [if_neg hp]
      exact iff_of_false hp (by simp)
  · intro h m
    rw [← h, Option.ite_none_right_eq_some, Option.some.injEq, eq_comm (a := a)]

theorem slice_take {h : Text} {a b n : ℕ} (hb : b ≤ n) : slice (h.take n) a b = slice h a b := by
  rw [slice, slice, List.drop_take, List.take_take, Nat.min_eq_left (by omega)]

theorem IsMint.slice_eq {h : Text} (hm : IsMint h) {a b : ℕ} (hb : b ≤ 64) :
    slice h a b = slice (wordOf 2) a b := by
  rw [← hm.2.1, slice_take hb]

theorem IsMint.looksMint {h : Text} (hm : IsMint h) : LooksMint h := by
  refine ⟨hm.1.ge, ?_⟩
  rw [hm.slice_eq (by omega)]
  decide

/-- One digit further on, byte 31 of a mint is zero. -/
theorem IsMint.not_looksMint_cons {h : Text} (hm : IsMint h) : ¬ LooksMint ('0' :: h) := by
  have hbyte : slice ('0' :: h) 62 64 = slice h 61 63 := rfl
  have hzero : slice (wordOf 2) 61 63 = "00" := by decide
  rintro ⟨-, hsel⟩
  rw [hbyte, hm.slice_eq (by omega), hzero] at hsel
  exact absurd hsel (by decide)

/-- **The two decoders of `mint_first` agree** on a hex text iff what looks like a mint is one. -/
theorem mintFirst_agree_iff {s : Text} (hs : IsHexText s) (nt : NumberText) (contract : Text)
    (isPool : Bool) : MintsAgree nt contract s isPool ↔ MintWellFormed s := by
  have hdecode := decodesMint_iff hs contract isPool
  have hdigits := hexDigits_string nt hs
  by_cases hX : s.take 2 = ['0', 'X']
  · -- the parser keeps the `0` of the prefix, so the words are one digit off
    rw [if_pos hX] at hdigits
    have hparse := parseMintFirst_digits hdigits
      (List.forall_mem_cons.mpr ⟨by decide, hs⟩)
    rw [MintWellFormed, if_pos hX]
    constructor
    · intro h
      have hno : ¬ IsMint (toLowerCase (strip0x s)) := by
        intro hm
        have hboth := (h _).mpr ((hdecode _).mpr ⟨hm, rfl⟩)
        rw [hparse, if_neg hm.not_looksMint_cons] at hboth
        cases hboth
      refine ⟨hno, fun hl => ?_⟩
      rw [if_pos hl] at hparse
      exact hno ((hdecode _).mp ((h _).mp hparse)).1
    · rintro ⟨hno, hnl⟩ m
      rw [hparse, if_neg hnl, hdecode]
      exact iff_of_false (by simp) fun h => hno h.1
  · rw [if_neg hX] at hdigits
    have hparse := parseMintFirst_digits hdigits hs
    have hagree : MintsAgree nt contract s isPool ↔
        (LooksMint (toLowerCase (strip0x s)) ↔ IsMint (toLowerCase (strip0x s))) := by
      refine Iff.trans (forall_congr' fun m => ?_)
        (agree_iff (a := mintOf (toLowerCase (strip0x s))))
      rw [hparse, hdecode]
    rw [hagree, MintWellFormed, if_neg hX]
    exact ⟨Iff.mp, fun h => ⟨h, IsMint.looksMint⟩⟩

/-- 96 bytes as the reference token encodes them: 5 units to the account `7`. -/
def mintText : Text := "0x" ++ [2, 7, 5].flatMap wordOf

theorem mintFirst_agree_mintText :
    IsHexText mintText ∧ MintsAgree integersOnly [] mintText false := by
  have hs : IsHexText mintText := by decide +kernel
  have hform : MintWellFormed mintText := by
    rw [MintWellFormed, if_neg (by decide +kernel)]
    decide +kernel
  exact ⟨hs, (mintFirst_agree_iff hs integersOnly [] false).mpr hform⟩

def longMintText : Text := mintText ++ wordOf 0

/-- **One word more**: the parser still finds the mint, the decoder finds no call. -/
theorem longMint_disagree :
    IsHexText longMintText ∧ ¬ MintsAgree integersOnly [] longMintText false := by
  have hs : IsHexText longMintText := by decide +kernel
  have hX : ¬ longMintText.take 2 = ['0', 'X'] := by decide +kernel
  have hlooks : LooksMint (toLowerCase (strip0x longMintText)) := by decide +kernel
  have hno : ¬ IsMint (toLowerCase (strip0x longMintText)) := by decide +kernel
  refine ⟨hs, fun h => ?_⟩
  have hdigits := hexDigits_string integersOnly hs
  rw [if_neg hX] at hdigits
  have hparse := parseMintFirst_digits hdigits hs
  rw [if_pos hlooks] at hparse
  exact hno ((decodesMint_iff hs [] false _).mp ((h _).mp hparse)).1

end BoingObserver.Supply
