import BoingObserver.Payload.ReEncode

/-!
# Reference NFT calldata

`reference-nft-calldata.ts`: the calls of a reference NFT collection and the token ids
that they mention.

* `decodeReferenceNftCalldata_text`: a hex text is decoded as its bytes are.
* `tokenIds_words`: every token id is a word of 32 bytes.
-/

namespace BoingObserver.Nft

open Js Rpc Payload

/-- The hex functions of the SDK; `none` is a throw. -/
structure HexSdk where
  hexToBytes : Text → Option (List ℕ)
  bytesToHex : List ℕ → Text
  validateHex32 : Text → Option Text

/-- What the SDK's documentation and the tests here say of them. -/
structure HexSdk.Lawful (sdk : HexSdk) : Prop where
  hexToBytes_hex : ∀ (bytes : List ℕ) (s : Text), (∀ b ∈ bytes, b < 256) →
    toLowerCase s = Js.bytesToHex bytes → sdk.hexToBytes ("0x" ++ s) = some bytes
  bytesToHex_eq : ∀ bytes : List ℕ, sdk.bytesToHex bytes = "0x" ++ Js.bytesToHex bytes
  validateHex32_word : ∀ s c : Text, sdk.validateHex32 s = some c → isAnyWord (strip0x c) = true

/-! ## The decoder -/

/-- `REF_NFT_SELECTOR_OWNER_OF` -/
def ownerOfSelector : ℕ := 0x03

/-- `REF_NFT_SELECTOR_TRANSFER_NFT` -/
def transferNftSelector : ℕ := 0x04

/-- `REF_NFT_SELECTOR_SET_METADATA_HASH` -/
def setMetadataHashSelector : ℕ := 0x05

/-- `REF_NFT_SELECTOR_MINT_BATCH` -/
def mintBatchSelector : ℕ := 0x06

/-- Soft decode cap (template v3 max is 500). -/
def mintBatchDecodeMax : ℕ := 500

inductive DecodedReferenceNftCall
  | mintBatch (to' : Text) (n : ℕ) (tokenIds metadataHashes : List Text)
  | transferNft (to' tokenId : Text)
  | setMetadataHash (tokenId metadataHash : Text)
  | ownerOf (tokenId : Text)

inductive CalldataInput
  | text (s : Text)
  | bytes (bytes : List ℕ)

/-- `bytes.subarray(offset, offset + 32)` -/
def wordAt (bytes : List ℕ) (offset : ℕ) : List ℕ := (bytes.drop offset).take 32

def readBeU64Low8 (word : List ℕ) : Option ℕ :=
  if ¬ (word.take 24).all (· = 0) then none
  else
    let n := (word.drop 24).foldl (fun n b => (n <<< 8) ||| b) 0
    if n ≤ 2 ^ 53 - 1 then some n else none

section

variable (sdk : HexSdk)

def normalizeCalldataBytes (calldata : CalldataInput) : Option (List ℕ) :=
  match calldata with
  | .bytes bytes => if 32 ≤ bytes.length then some bytes else none
  | .text s =>
    let t := trim s
    if t = [] then none
    else
      (sdk.hexToBytes (if t.take 2 = "0x" ∨ t.take 2 = "0X" then t else "0x" ++ t)).filter
        fun bytes => 32 ≤ bytes.length

def wordHex (bytes : List ℕ) (offset : ℕ) : Text := sdk.bytesToHex (wordAt bytes offset)

/-- Best-effort decode of reference NFT collection calldata. -/
def decodeReferenceNftCalldata (calldata : CalldataInput) : Option DecodedReferenceNftCall :=
  match normalizeCalldataBytes sdk calldata with
  | none => none
  | some bytes =>
    let selector := bytes.getD 31 0
    if selector = mintBatchSelector then
      if bytes.length < 96 then none
      else
        match readBeU64Low8 (wordAt bytes 64) with
        | none => none
        | some n =>
          if n < 1 ∨ mintBatchDecodeMax < n then none
          else
            let expected := 96 + 64 * n
            -- Trailing zero padding is allowed by the VM; require at least the exact layout.
            if bytes.length < expected then none
            else if ¬ (bytes.drop expected).all (· = 0) then none
            else
              some (.mintBatch (wordHex sdk bytes 32) n
                ((List.range n).map fun i => wordHex sdk bytes (96 + 32 * i))
                ((List.range n).map fun i => wordHex sdk bytes (96 + 32 * n + 32 * i)))
    else if bytes.length < 96 then none
    else if selector = transferNftSelector then
      some (.transferNft (wordHex sdk bytes 32) (wordHex sdk bytes 64))
    else if selector = setMetadataHashSelector then
      some (.setMetadataHash (wordHex sdk bytes 32) (wordHex sdk bytes 64))
    else if selector = ownerOfSelector then some (.ownerOf (wordHex sdk bytes 32))
    else none

end

/-- Collect opaque token-id words from a decoded reference NFT call. -/
def tokenIdsFromDecodedReferenceNftCall : DecodedReferenceNftCall → List Text
  | .mintBatch _ _ tokenIds _ => tokenIds
  | .transferNft _ tokenId => [tokenId]
  | .setMetadataHash tokenId _ => [tokenId]
  | .ownerOf tokenId => [tokenId]

/-! ## What it makes of a hex text -/

section

variable {sdk : HexSdk} {bytes : List ℕ}

theorem normalizeCalldataBytes_text (hsdk : sdk.Lawful) (hb : ∀ b ∈ bytes, b < 256) {s : Text}
    (h : Encodes bytes (.string s)) (hne : s ≠ []) :
    normalizeCalldataBytes sdk (.text s) = normalizeCalldataBytes sdk (.bytes bytes) := by
  have hread : sdk.hexToBytes (if s.take 2 = "0x" ∨ s.take 2 = "0X" then s else "0x" ++ s) =
      some bytes ∧ trim s = s := by
    rcases h with h | ⟨digits, hdigits, h | h⟩
    · cases h
    · obtain rfl : s = digits := Value.string.inj h
      refine ⟨?_, trim_digits hdigits⟩
      have hplain : ¬ (s.take 2 = ("0x" : Text) ∨ s.take 2 = ("0X" : Text)) :=
        not_or.mpr ⟨not_prefixed_digits hdigits (show isAnyHexDigit 'x' = false by decide),
          not_prefixed_digits hdigits (show isAnyHexDigit 'X' = false by decide)⟩
      rw [if_neg hplain]
      exact hsdk.hexToBytes_hex bytes s hb hdigits
    · obtain rfl : s = '0' :: 'x' :: digits := Value.string.inj h
      refine ⟨?_, trim_prefixed_digits hdigits⟩
      have hprefixed : ('0' :: 'x' :: digits).take 2 = ("0x" : Text) := rfl
      rw [if_pos (Or.inl hprefixed)]
      exact hsdk.hexToBytes_hex bytes digits hb hdigits
  have htext : normalizeCalldataBytes sdk (.text s) =
      (some bytes).filter fun bytes => 32 ≤ bytes.length := by
    rw [normalizeCalldataBytes, hread.2, if_neg hne, hread.1]
  rw [htext, normalizeCalldataBytes, Option.filter_some]
  simp only [decide_eq_true_eq]

/-- **A hex text is decoded as its bytes are.** -/
theorem decodeReferenceNftCalldata_text (hsdk : sdk.Lawful) (hb : ∀ b ∈ bytes, b < 256) {s : Text}
    (h : Encodes bytes (.string s)) (hne : s ≠ []) :
    decodeReferenceNftCalldata sdk (.text s) = decodeReferenceNftCalldata sdk (.bytes bytes) := by
  rw [decodeReferenceNftCalldata, decodeReferenceNftCalldata,
    normalizeCalldataBytes_text hsdk hb h hne]

/-- A token id: a word of 32 bytes. -/
def IsTokenId (sdk : HexSdk) (id : Text) : Prop :=
  ∃ word : List ℕ, word.length = 32 ∧ (∀ b ∈ word, b < 256) ∧ id = sdk.bytesToHex word

theorem isTokenId_wordHex (hb : ∀ b ∈ bytes, b < 256) {offset : ℕ}
    (h : offset + 32 ≤ bytes.length) : IsTokenId sdk (wordHex sdk bytes offset) := by
  refine ⟨wordAt bytes offset, ?_, fun b hmem => hb b ?_, rfl⟩
  · rw [wordAt, List.length_take, List.length_drop]
    omega
  · exact List.mem_of_mem_drop (List.mem_of_mem_take hmem)

/-- **Every token id is a word of 32 bytes.** -/
theorem tokenIds_words (hb : ∀ b ∈ bytes, b < 256) {decoded : DecodedReferenceNftCall}
    (h : decodeReferenceNftCalldata sdk (.bytes bytes) = some decoded) {id : Text}
    (hid : id ∈ tokenIdsFromDecodedReferenceNftCall decoded) : IsTokenId sdk id := by
  by_cases hlen : 32 ≤ bytes.length
  · rw [decodeReferenceNftCalldata, normalizeCalldataBytes, if_pos hlen] at h
    dsimp only at h
    split_ifs at h with hmint h96 h96 htransfer hset howner
    · cases hn : readBeU64Low8 (wordAt bytes 64) with
      | none =>
        rw [hn] at h
        cases h
      | some n =>
        rw [hn] at h
        dsimp only at h
        split_ifs at h with hrange hlayout hpadding
        obtain rfl := Option.some.inj h
        obtain ⟨i, hi, rfl⟩ := List.mem_map.mp hid
        have hi := List.mem_range.mp hi
        exact isTokenId_wordHex hb (by omega)
    · obtain rfl := Option.some.inj h
      obtain rfl := List.mem_singleton.mp hid
      exact isTokenId_wordHex hb (by omega)
    · obtain rfl := Option.some.inj h
      obtain rfl := List.mem_singleton.mp hid
      exact isTokenId_wordHex hb (by omega)
    · obtain rfl := Option.some.inj h
      obtain rfl := List.mem_singleton.mp hid
      exact isTokenId_wordHex hb (by omega)
  · rw [decodeReferenceNftCalldata, normalizeCalldataBytes, if_neg hlen] at h
    cases h

end

end BoingObserver.Nft
