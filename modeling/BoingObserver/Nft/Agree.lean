import BoingObserver.Contract.Encodings
import BoingObserver.Contract.RoundTrip
import BoingObserver.Nft.MintBatch

/-!
# The NFT decoder against the interface tables

`decodeReferenceNftCalldata` against what `encodeContractCall` makes of the functions of
the `nft` interface, and against `decodeContractCall` where the first word is no selector.

* `decode_eq_none_iff`: which calldata is not decoded.
* `decode_words`: an encoded call is read word by word.
* `nftDecoder_agrees_iff`: `owner_of` is encoded in two words and never recognised; a
  first word that is no selector is not looked at.
-/

namespace BoingObserver.Nft

open Js Payload
open Contract (AbiParam ContractFunction CallInput IsWord wordOf wordValue isWord_wordOf
  encodeContractCall encodeParamWord encodeParams_eq_ok
  isWord_encodeParamWord encodeParamWord_numeric hexWord_eq_ok nftInterface decodeContractCall
  calldataWords selectorOf)
open Published (beBytes numeral_beBytes bytesToHex_append take_bytesToHex bytesToHex_replicate_zero
  bytesToHex_inj)

/-! ## What is decoded -/

/-- Three words with a selector below the batch's, or a batch with nothing but zeros after it. -/
def Shaped (bytes : List ℕ) : Prop :=
  96 ≤ bytes.length ∧
    (bytes.getD 31 0 = ownerOfSelector ∨ bytes.getD 31 0 = transferNftSelector ∨
      bytes.getD 31 0 = setMetadataHashSelector ∨
      bytes.getD 31 0 = mintBatchSelector ∧ ∃ n, readBeU64Low8 (wordAt bytes 64) = some n ∧
        1 ≤ n ∧ n ≤ mintBatchDecodeMax ∧ 96 + 64 * n ≤ bytes.length ∧
          (bytes.drop (96 + 64 * n)).all (· = 0) = true)

section

variable (sdk : HexSdk) {bytes : List ℕ}

theorem decode_of_no_count (hmint : bytes.getD 31 0 = mintBatchSelector)
    (h96 : 96 ≤ bytes.length)
    (hcount : ∀ n, readBeU64Low8 (wordAt bytes 64) = some n → n < 1 ∨ mintBatchDecodeMax < n) :
    decodeReferenceNftCalldata sdk (.bytes bytes) = none := by
  rw [decodeReferenceNftCalldata, normalizeCalldataBytes, if_pos (by omega)]
  dsimp only
  rw [if_pos hmint, if_neg (not_lt.mpr h96)]
  cases hn : readBeU64Low8 (wordAt bytes 64) with
  | none => rfl
  | some n => exact if_pos (hcount n hn)

theorem decode_batch_eq_none_iff (hmint : bytes.getD 31 0 = mintBatchSelector)
    (h96 : 96 ≤ bytes.length) : decodeReferenceNftCalldata sdk (.bytes bytes) = none ↔
      ¬ ∃ n, readBeU64Low8 (wordAt bytes 64) = some n ∧ 1 ≤ n ∧ n ≤ mintBatchDecodeMax ∧
        96 + 64 * n ≤ bytes.length ∧ (bytes.drop (96 + 64 * n)).all (· = 0) = true := by
  by_cases hcount : ∃ n, readBeU64Low8 (wordAt bytes 64) = some n ∧ 1 ≤ n ∧ n ≤ mintBatchDecodeMax
  · obtain ⟨n, hn, h1, h500⟩ := hcount
    rw [decode_of_mintBatch hmint hn h1 h500 h96]
    split_ifs with hbad
    · refine iff_of_true rfl ?_
      rintro ⟨m, hm, -, -, hlen, hzero⟩
      obtain rfl := Option.some.inj (hn.symm.trans hm)
      exact hbad.elim (not_lt.mpr hlen) fun hne => hne hzero
    · obtain ⟨hlen, hzero⟩ := not_or.mp hbad
      exact iff_of_false (fun h => by cases h)
        (not_not.mpr ⟨n, hn, h1, h500, not_lt.mp hlen, not_not.mp hzero⟩)
  · refine iff_of_true (decode_of_no_count sdk hmint h96 fun n hn => ?_) ?_
    · by_contra hrange
      obtain ⟨h1, h500⟩ := not_or.mp hrange
      exact hcount ⟨n, hn, not_lt.mp h1, not_lt.mp h500⟩
    · rintro ⟨n, hn, h1, h500, -⟩
      exact hcount ⟨n, hn, h1, h500⟩

/-- **Which calldata is not decoded.** -/
theorem decode_eq_none_iff :
    decodeReferenceNftCalldata sdk (.bytes bytes) = none ↔ ¬ Shaped bytes := by
  by_cases h96 : 96 ≤ bytes.length
  · rw [Shaped, and_iff_right h96]
    by_cases hmint : bytes.getD 31 0 = mintBatchSelector
    · have hother {selector : ℕ} (hne : mintBatchSelector ≠ selector) :
          bytes.getD 31 0 ≠ selector := fun h => hne (hmint.symm.trans h)
      rw [or_iff_right (hother (by decide)), or_iff_right (hother (by decide)),
        or_iff_right (hother (by decide)), and_iff_right hmint]
      exact decode_batch_eq_none_iff sdk hmint h96
    · rw [decodeReferenceNftCalldata, normalizeCalldataBytes, if_pos (by omega)]
      dsimp only
      rw [if_neg hmint, if_neg (not_lt.mpr h96)]
      split_ifs with htransfer hset howner
      · exact iff_of_false (fun h => by cases h) (not_not.mpr (Or.inr (Or.inl htransfer)))
      · exact iff_of_false (fun h => by cases h) (not_not.mpr (Or.inr (Or.inr (Or.inl hset))))
      · exact iff_of_false (fun h => by cases h) (not_not.mpr (Or.inl howner))
      · refine iff_of_true rfl ?_
        rintro (h | h | h | ⟨h, -⟩)
        · exact howner h
        · exact htransfer h
        · exact hset h
        · exact hmint h
  · exact iff_of_true (decode_of_short (not_le.mp h96)) fun h => h96 h.1

end

/-! ## Encoded calls -/

def ByteWord.ofText (w : Text) : ByteWord := .ofNat (wordValue w)

theorem bytesToHex_ofText {w : Text} (h : IsWord w) : bytesToHex (ByteWord.ofText w).val = w := by
  have hlt : wordValue w < 256 ^ 32 := by
    have hnumeral := numeral_lt h.2
    rw [h.1] at hnumeral
    exact hnumeral
  refine numeral_inj (isHex_bytesToHex _) h.2 ?_ ?_
  · rw [length_bytesToHex (ByteWord.ofText w).property.bytes, (ByteWord.ofText w).property.length, h.1]
  · rw [ByteWord.ofText, ByteWord.ofNat, numeral_beBytes, Nat.mod_eq_of_lt hlt]
    rfl

theorem ofText_wordOf (n : ℕ) : ByteWord.ofText (wordOf n) = .ofNat n := by
  rw [ByteWord.ofText, Contract.wordValue_wordOf]

theorem bytesToHex_layout {ws : List Text} (h : ∀ w ∈ ws, IsWord w) :
    bytesToHex (layout (ws.map ByteWord.ofText)) = ws.flatten := by
  induction ws with
  | nil => rfl
  | cons w ws ih =>
    obtain ⟨hw, hws⟩ := List.forall_mem_cons.mp h
    rw [List.map_cons, layout, List.flatMap_cons, ← layout, bytesToHex_append,
      bytesToHex_ofText hw, ih hws, List.flatten_cons]

/-- **A text of words is decoded word by word.** -/
theorem decode_words {sdk : HexSdk} (hsdk : sdk.Lawful) {ws : List Text} (h : ∀ w ∈ ws, IsWord w) :
    decodeReferenceNftCalldata sdk (.text ("0x" ++ ws.flatten)) =
      decodeReferenceNftCalldata sdk (.bytes (layout (ws.map ByteWord.ofText))) := by
  have hdigits : toLowerCase ws.flatten = bytesToHex (layout (ws.map ByteWord.ofText)) := by
    rw [bytesToHex_layout h, (Contract.isWord_flatten h).toLowerCase_eq]
  exact decodeReferenceNftCalldata_text hsdk (fun b hb => lt_of_mem_layout hb)
    (Or.inr ⟨_, hdigits, Or.inr rfl⟩) (List.cons_ne_nil _ _)

def callOf (selector : ℕ) (ws : List Text) : Option DecodedReferenceNftCall :=
  let word (i : ℕ) : Text := "0x" ++ ws.getD i []
  if selector = ownerOfSelector then some (.ownerOf (word 0))
  else if selector = transferNftSelector then some (.transferNft (word 0) (word 1))
  else if selector = setMetadataHashSelector then some (.setMetadataHash (word 0) (word 1))
  else none

def Spells (p : AbiParam) (raw w : Text) : Prop :=
  if p.type.isNumeric then ∃ n, Contract.Denotes raw n ∧ w = wordOf n
  else w = toLowerCase (strip0x (trim raw))

/-- The decoder recognises the function with the words that its arguments spell. -/
def Recognises (sdk : HexSdk) (f : ContractFunction) (values : List Text) (calldata : Text) : Prop :=
  ∃ ws : List Text, ws.length = f.params.length ∧
    (∀ i p w, f.params[i]? = some p → ws[i]? = some w → Spells p (values.getD i []) w) ∧
    callOf f.selector ws ≠ none ∧
    decodeReferenceNftCalldata sdk (.text calldata) = callOf f.selector ws

section

variable {sdk : HexSdk} (hsdk : sdk.Lawful)
include hsdk

/-- **A call of two arguments is recognised.** -/
theorem decode_two {selector : ℕ} {a b : Text} (ha : IsWord a) (hb : IsWord b)
    (hselector : selector = transferNftSelector ∨ selector = setMetadataHashSelector) :
    decodeReferenceNftCalldata sdk (.text ("0x" ++ [wordOf selector, a, b].flatten)) =
      callOf selector [a, b] := by
  have hlt : selector < 2 ^ 256 := by
    rcases hselector with rfl | rfl
    · decide
    · decide
  have hwords : ∀ w ∈ [wordOf selector, a, b], IsWord w :=
    List.forall_mem_cons.mpr ⟨isWord_wordOf hlt,
      List.forall_mem_cons.mpr ⟨ha, List.forall_mem_singleton.mpr hb⟩⟩
  have hlen : (layout ([wordOf selector, a, b].map ByteWord.ofText)).length = 96 :=
    length_layout _
  have hword {i : ℕ} {w : Text} (hw : IsWord w)
      (h : ([wordOf selector, a, b].map ByteWord.ofText)[i]? = some (.ofText w)) :
      wordHex sdk (layout ([wordOf selector, a, b].map ByteWord.ofText)) (32 * i) = "0x" ++ w := by
    have hread := wordHex_layout hsdk h []
    rwa [List.append_nil, ByteWord.hex, bytesToHex_ofText hw] at hread
  have hfirst : (layout ([wordOf selector, a, b].map ByteWord.ofText)).getD 31 0 = selector := by
    have hread := getD_layout (.ofText (wordOf selector)) [.ofText a, .ofText b] []
    have hvalue : (ByteWord.ofText (wordOf selector)).val.getD 31 0 = selector := by
      rw [ofText_wordOf]
      rcases hselector with rfl | rfl
      · decide
      · decide
    rw [List.append_nil] at hread
    exact hread.trans hvalue
  have ha1 := hword (i := 1) ha rfl
  have hb2 := hword (i := 2) hb rfl
  rw [decode_words hsdk hwords, decodeReferenceNftCalldata, normalizeCalldataBytes,
    if_pos (by omega)]
  dsimp only
  rw [hfirst, hlen, ha1, hb2]
  rcases hselector with rfl | rfl
  · rfl
  · rfl

/-- **A call of one argument is not recognised**, whatever its selector. -/
theorem decode_one {selector : ℕ} (hlt : selector < 2 ^ 256) {a : Text} (ha : IsWord a) :
    decodeReferenceNftCalldata sdk (.text ("0x" ++ [wordOf selector, a].flatten)) = none := by
  have hwords : ∀ w ∈ [wordOf selector, a], IsWord w :=
    List.forall_mem_cons.mpr ⟨isWord_wordOf hlt, List.forall_mem_singleton.mpr ha⟩
  rw [decode_words hsdk hwords]
  refine decode_of_short ?_
  rw [length_layout]
  exact (show 32 * 2 < 96 by decide)

end

theorem spells_of_encodeParamWord {p : AbiParam} {raw w : Text} (h : encodeParamWord p raw = .ok w) :
    Spells p raw w := by
  rw [Spells]
  split
  next hnumeric =>
    obtain ⟨n, hn, -, hw⟩ := encodeParamWord_numeric hnumeric h
    exact ⟨n, hn, hw⟩
  next hnumeric =>
    rw [encodeParamWord] at h
    cases hp : p.type with
    | account => rw [hp] at h; exact (hexWord_eq_ok h).2
    | bytes32 => rw [hp] at h; exact (hexWord_eq_ok h).2
    | _ => rw [hp] at hnumeric; exact absurd rfl hnumeric

/-- **What is encoded** is the selector and the words that the arguments spell. -/
theorem encodeContractCall_eq_ok {f : ContractFunction} {values : List Text} {calldata : Text}
    (h : encodeContractCall f.selector f.params values = .ok calldata) :
    ∃ ws : List Text, ws.length = f.params.length ∧ (∀ w ∈ ws, IsWord w) ∧
      (∀ i p w, f.params[i]? = some p → ws[i]? = some w → Spells p (values.getD i []) w) ∧
      calldata = "0x" ++ (wordOf f.selector :: ws).flatten := by
  rw [encodeContractCall] at h
  obtain ⟨ws, hws, htext⟩ := bind_eq_ok h
  obtain ⟨hlen, hword⟩ := encodeParams_eq_ok hws
  have hsome {i : ℕ} {w : Text} (hw : ws[i]? = some w) : ∃ p, f.params[i]? = some p := by
    obtain ⟨hi, -⟩ := List.getElem?_eq_some_iff.mp hw
    exact ⟨_, List.getElem?_eq_getElem (hlen ▸ hi)⟩
  refine ⟨ws, hlen, fun w hw => ?_, fun i p w hp hw => ?_, ?_⟩
  · obtain ⟨i, hi⟩ := List.mem_iff_getElem?.mp hw
    obtain ⟨p, hp⟩ := hsome hi
    exact isWord_encodeParamWord (hword i p w hp hi)
  · exact spells_of_encodeParamWord (hword i p w hp hw)
  · obtain rfl := Except.ok.inj htext
    rfl

/-! ## Agreement -/

section

variable {sdk : HexSdk} (hsdk : sdk.Lawful)
include hsdk

/-- **Every function but `owner_of` is recognised**, with all arguments that are accepted. -/
theorem recognises_iff {f : ContractFunction} (hf : f ∈ nftInterface.functions)
    (hbatch : f.name ≠ "mint_batch") {values : List Text} {calldata : Text}
    (h : encodeContractCall f.selector f.params values = .ok calldata) :
    Recognises sdk f values calldata ↔ f.name ≠ "owner_of" := by
  obtain ⟨ws, hlen, hwords, hspells, rfl⟩ := encodeContractCall_eq_ok h
  have htwo (hparams : f.params.length = 2)
      (hselector : f.selector = transferNftSelector ∨ f.selector = setMetadataHashSelector)
      (hcall : ∀ ws, callOf f.selector ws ≠ none) :
      Recognises sdk f values ("0x" ++ (wordOf f.selector :: ws).flatten) := by
    obtain ⟨a, b, rfl⟩ := List.length_eq_two.mp (hlen.trans hparams)
    obtain ⟨ha, hb⟩ := List.forall_mem_cons.mp hwords
    exact ⟨[a, b], hlen, hspells, hcall _,
      decode_two hsdk ha (List.forall_mem_singleton.mp hb) hselector⟩
  rw [nftInterface] at hf
  simp only [List.mem_cons, List.not_mem_nil, or_false] at hf
  rcases hf with rfl | rfl | rfl | rfl
  · refine iff_of_false ?_ (not_not.mpr rfl)
    rintro ⟨ws', -, -, hcall, hdecode⟩
    obtain ⟨a, rfl⟩ := List.length_eq_one_iff.mp hlen
    rw [decode_one hsdk (by decide) (List.forall_mem_singleton.mp hwords)] at hdecode
    exact hcall hdecode.symm
  · exact iff_of_true (htwo rfl (Or.inl rfl) fun ws h => by cases h) (by decide)
  · exact iff_of_true (htwo rfl (Or.inr rfl) fun ws h => by cases h) (by decide)
  · exact absurd rfl hbatch

end

/-- The first word is no selector: there is more than zeros above its last byte. -/
def Dirty (bytes : List ℕ) : Prop := ∃ b ∈ bytes.take 31, b ≠ 0

/-- **The interface decoder decodes nothing without a selector.** -/
theorem decodeContractCall_of_dirty {bytes : List ℕ} (hb : ∀ b ∈ bytes, b < 256) (hdirty : Dirty bytes)
    {s : Text} (h : Encodes bytes (.string s)) (input : CallInput)
    (hinput : input.calldata = .string s) : decodeContractCall input = .ok none := by
  rw [decodeContractCall, Contract.decodeWith, hinput]
  cases hwords : calldataWords (.string s) with
  | none => rfl
  | some words =>
    have hdigits := strip0x_of_encodes h
    have htrim : trim s = s :=
      Contract.trim_eq_self_of_isHex (hdigits ▸ isHex_bytesToHex bytes)
    obtain ⟨hne, hisWord, hflat⟩ := Contract.calldataWords_string_eq_some_iff.mp hwords
    rw [htrim, hdigits] at hflat
    obtain ⟨w, ws, rfl⟩ := List.exists_cons_of_ne_nil hne
    have hw := hisWord w List.mem_cons_self
    have hhigh : w.take 62 = bytesToHex (bytes.take 31) := by
      rw [← take_bytesToHex hb 31, hflat, List.flatten_cons,
        List.take_append_of_le_length (by rw [hw.1]; decide)]
    have hnone : selectorOf (w :: ws) = none := by
      rw [selectorOf, List.head?_cons]
      refine if_neg ?_
      rintro ⟨-, hzero⟩
      have hbytes : bytes.take 31 = List.replicate 31 0 := by
        refine bytesToHex_inj (fun b hmem => hb b (List.mem_of_mem_take hmem)) ?_ ?_
        · intro b hmem
          rw [List.eq_of_mem_replicate hmem]
          decide
        · rw [← hhigh, hzero, bytesToHex_replicate_zero]
      obtain ⟨b, hmem, hb0⟩ := hdirty
      rw [hbytes] at hmem
      exact hb0 (List.eq_of_mem_replicate hmem)
    dsimp only
    rw [hnone]

/-- **Where the NFT decoder agrees with the interface tables**: it recognises every function but
`owner_of`, and passes over a first word that is no selector only where nothing else is shaped like a
call; the interface decoder always does. -/
theorem nftDecoder_agrees_iff {sdk : HexSdk} (hsdk : sdk.Lawful) :
    (∀ f ∈ nftInterface.functions, f.name ≠ "mint_batch" → ∀ values calldata,
      encodeContractCall f.selector f.params values = .ok calldata →
        (Recognises sdk f values calldata ↔ f.name ≠ "owner_of")) ∧
    (∀ bytes : List ℕ, (∀ b ∈ bytes, b < 256) → Dirty bytes →
      (∀ calldata, Carries bytes calldata →
        (decodeReferenceNftCalldata sdk calldata = none ↔ ¬ Shaped bytes)) ∧
      ∀ s, Encodes bytes (.string s) → ∀ input : CallInput, input.calldata = .string s →
        decodeContractCall input = .ok none) := by
  refine ⟨fun f hf hbatch values calldata h => recognises_iff hsdk hf hbatch h,
    fun bytes hb hdirty => ⟨fun calldata h => ?_, fun s h input hinput =>
      decodeContractCall_of_dirty hb hdirty h input hinput⟩⟩
  rw [decode_of_carries hsdk hb h, decode_eq_none_iff]

/-- `transfer_nft` to the zero account of token 1, after a first word of 31 bytes `0xff`. -/
def dirtyTransfer : List ℕ :=
  List.replicate 31 0xff ++ [4] ++ List.replicate 32 0 ++ beBytes 32 1

theorem nftDecoder_agrees_dirtyTransfer :
    decodeReferenceNftCalldata hexSdk (.bytes dirtyTransfer) = none ↔ ¬ Shaped dirtyTransfer :=
  ((nftDecoder_agrees_iff lawful_hexSdk).2 dirtyTransfer (by decide) ⟨0xff, by decide, by decide⟩).1 _
    .bytes

/-- **`owner_of(1)` is encoded and not recognised**, and the transfer with a dirty first word is
decoded. -/
theorem nftDecoder_not_agrees :
    (∃ f ∈ nftInterface.functions, ∃ calldata, f.name = "owner_of" ∧
      encodeContractCall f.selector f.params ["1"] = .ok calldata ∧
        decodeReferenceNftCalldata hexSdk (.text calldata) = none) ∧
    Dirty dirtyTransfer ∧ decodeReferenceNftCalldata hexSdk (.bytes dirtyTransfer) ≠ none := by
  refine ⟨⟨_, List.mem_cons_self, "0x" ++ [wordOf 3, wordOf 1].flatten, rfl, rfl, ?_⟩,
    ⟨0xff, by decide, by decide⟩, ?_⟩
  · exact decode_one lawful_hexSdk (by decide) (isWord_wordOf (by decide))
  · rw [ne_eq, decode_eq_none_iff, not_not]
    exact ⟨by decide, Or.inr (Or.inl (by decide))⟩

end BoingObserver.Nft
