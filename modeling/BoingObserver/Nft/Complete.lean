import BoingObserver.Nft.Discover
import BoingObserver.Published.Blob

/-!
# NFT discovery in every encoding

A call keeps its meaning when its contract and its calldata are re-encoded between texts
and arrays of bytes; the scan of `reference-nft-discover.ts` does not.

* `mentioned_reEncoded`: a re-encoded window mentions the same ids.
* `reEncodedWindow_encoded`: every window can be given in texts, or in arrays.
* `words_arrays`: nothing is read of arrays.
* `complete_iff`: when the scan is complete in every encoding.
-/

namespace BoingObserver.Nft

open Js Rpc Payload

/-! ## Re-encodings -/

def CallField (k : Text) (v w : Value) : Prop :=
  v = w ∨ ((k = "contract" ∨ k = "calldata") ∧ ∃ bytes, Encodes bytes v ∧ Encodes bytes w)

/-- The same transaction; the contract and the calldata of a call may be re-encoded. -/
inductive WindowTx.ReEncoded : WindowTx → WindowTx → Prop
  | call {c c' : NftCall} (h : Wrapped CallField c.payload c'.payload)
      (hcontract : c.contract = c'.contract) (hcalldata : c.calldata = c'.calldata) :
      ReEncoded (.call c) (.call c')
  | other (payload : Option Value) (h : NoCall payload) :
      ReEncoded (.other payload h) (.other payload h)

structure WindowBlock.ReEncoded (b b' : WindowBlock) : Prop where
  transactions : List.Forall₂ WindowTx.ReEncoded b.transactions b'.transactions
  receipts : b.receipts = b'.receipts

def ReEncodedWindow (window window' : List WindowBlock) : Prop :=
  List.Forall₂ WindowBlock.ReEncoded window window'

section

variable {sdk : HexSdk} {want : Text}

theorem ids_reEncoded {t t' : WindowTx} (h : t.ReEncoded t') (receipt : Value) :
    t.ids sdk want receipt = t'.ids sdk want receipt := by
  cases h with
  | call h hcontract hcalldata => rw [WindowTx.ids, WindowTx.ids, hcontract, hcalldata]
  | other payload h => rfl

theorem flatMap_ids_reEncoded {l l' : List WindowTx} (h : List.Forall₂ WindowTx.ReEncoded l l')
    (receiptAt : ℕ → Value) (k : ℕ) :
    ((l.zipIdx k).flatMap fun p => p.1.ids sdk want (receiptAt p.2)) =
      (l'.zipIdx k).flatMap fun p => p.1.ids sdk want (receiptAt p.2) := by
  induction h generalizing k with
  | nil => rfl
  | cons ht _ ih =>
    rw [List.zipIdx_cons, List.zipIdx_cons, List.flatMap_cons, List.flatMap_cons,
      ids_reEncoded ht, ih]

/-- **A re-encoded window mentions the same ids.** -/
theorem mentioned_reEncoded {window window' : List WindowBlock}
    (h : ReEncodedWindow window window') :
    mentioned sdk want window = mentioned sdk want window' := by
  rw [mentioned, mentioned]
  induction h with
  | nil => rfl
  | @cons b b' _ _ hb _ ih =>
    have hreceipts : b.block.receiptAt = b'.block.receiptAt := by
      funext i
      rw [NftBlock.receiptAt, NftBlock.receiptAt, WindowBlock.block, WindowBlock.block,
        hb.receipts]
    rw [List.flatMap_cons, List.flatMap_cons, ih, WindowBlock.ids, WindowBlock.ids, hreceipts,
      flatMap_ids_reEncoded hb.transactions]

end

/-! ## Choosing an encoding -/

theorem keepsKind_callField : KeepsKind CallField where
  refl k v := Or.inl rfl
  eq_of_tag k v w h hk := by
    rcases h with h | ⟨rfl | rfl, -⟩
    · exact h
    · exact absurd (field_not_tag "contract" (by decide)) hk
    · exact absurd (field_not_tag "calldata" (by decide)) hk
  eq_of_read k hk v w h := by
    rcases h with h | ⟨rfl | rfl, -⟩
    · exact h
    · exact absurd hk (by decide)
    · exact absurd hk (by decide)
  isArray v w h := by
    rcases h with rfl | ⟨h | h, -⟩
    · rfl
    · exact absurd h (by decide)
    · exact absurd h (by decide)

section

variable {encode : List ℕ → Value} (hencode : ∀ bytes, Encodes bytes (encode bytes))

open Classical in
/-- A field of the call, with the contract and the calldata in an encoding of choice. -/
noncomputable def NftCall.field (c : NftCall) (encode : List ℕ → Value) (k : Text) (v : Value) :
    Value :=
  if k = "contract" ∧ Encodes c.contract v then encode c.contract
  else if k = "calldata" ∧ Encodes c.calldata v then encode c.calldata
  else v

include hencode in
theorem NftCall.callField (c : NftCall) (k : Text) (v : Value) :
    CallField k v (c.field encode k v) := by
  rw [NftCall.field]
  split_ifs with hcontract hcalldata
  · exact Or.inr ⟨Or.inl hcontract.1, c.contract, hcontract.2, hencode _⟩
  · exact Or.inr ⟨Or.inr hcalldata.1, c.calldata, hcalldata.2, hencode _⟩
  · exact Or.inl rfl

theorem NftCall.field_of_ne (c : NftCall) {k : Text} (hcontract : k ≠ "contract")
    (hcalldata : k ≠ "calldata") (v : Value) : c.field encode k v = v := by
  rw [NftCall.field, if_neg fun h => hcontract h.1, if_neg fun h => hcalldata h.1]

theorem not_encodes_undefined (bytes : List ℕ) : ¬ Encodes bytes .undefined := by
  rintro (h | ⟨s, -, h | h⟩) <;> cases h

theorem NftCall.field_undefined (c : NftCall) (k : Text) :
    c.field encode k .undefined = .undefined := by
  rw [NftCall.field, if_neg fun h => not_encodes_undefined _ h.2,
    if_neg fun h => not_encodes_undefined _ h.2]

theorem NftCall.get_inner (c : NftCall) (k : Text) :
    (getTxPayloadInner (mapPayload (c.field encode) c.payload)).get k =
      c.field encode k ((getTxPayloadInner c.payload).get k) := by
  rw [inner_mapPayload, get_mapFields (c.field_undefined k)]
  intro k v hk
  refine c.field_of_ne ?_ ?_ v
  · rintro rfl
    exact hk (field_not_tag "contract" (by decide))
  · rintro rfl
    exact hk (field_not_tag "calldata" (by decide))

theorem NftCall.get_contract (c : NftCall) :
    (getTxPayloadInner (mapPayload (c.field encode) c.payload)).get "contract" =
      encode c.contract := by
  rw [c.get_inner, NftCall.field, if_pos ⟨rfl, c.contract_encodes⟩]

theorem NftCall.get_calldata (c : NftCall) :
    (getTxPayloadInner (mapPayload (c.field encode) c.payload)).get "calldata" =
      encode c.calldata := by
  have hne : ("calldata" : Text) ≠ "contract" := by decide
  rw [c.get_inner, NftCall.field, if_neg fun h => hne h.1, if_pos ⟨rfl, c.calldata_encodes⟩]

noncomputable def NftCall.encoded (c : NftCall) : NftCall where
  payload := mapPayload (c.field encode) c.payload
  contract := c.contract
  calldata := c.calldata
  isCall := (getTxPayloadKind_eq keepsKind_callField
    (wrapped_mapPayload (c.callField hencode) c.payload)).symm.trans c.isCall
  contract_lt := c.contract_lt
  calldata_lt := c.calldata_lt
  contract_encodes := by
    rw [c.get_contract]
    exact hencode _
  calldata_encodes := by
    rw [c.get_calldata]
    exact hencode _

noncomputable def WindowTx.encoded : WindowTx → WindowTx
  | .call c => .call (c.encoded hencode)
  | .other payload h => .other payload h

noncomputable def encodedWindow (window : List WindowBlock) : List WindowBlock :=
  window.map fun b => ⟨b.transactions.map (WindowTx.encoded hencode), b.receipts⟩

theorem reEncoded_encoded (t : WindowTx) : t.ReEncoded (t.encoded hencode) := by
  cases t with
  | call c => exact .call (wrapped_mapPayload (c.callField hencode) c.payload) rfl rfl
  | other payload h => exact .other payload h

theorem reEncodedWindow_encoded (window : List WindowBlock) :
    ReEncodedWindow window (encodedWindow hencode window) := by
  rw [ReEncodedWindow, encodedWindow, List.forall₂_map_right_iff]
  refine List.forall₂_same.mpr fun b _ => ⟨?_, rfl⟩
  rw [List.forall₂_map_right_iff]
  exact List.forall₂_same.mpr fun t _ => reEncoded_encoded hencode t

end

/-! ## When discovery is complete -/

/-- The scan returns the first distinct ids that the window mentions, in every encoding. -/
def Complete (sdk : HexSdk) (want : Text) (window : List WindowBlock) (collectionHex : Text)
    (option : Option ℤ) : Prop :=
  words sdk window collectionHex option =
      some (firstDistinct (maxTokenIds option) (mentioned sdk want window)) ∧
    ∀ window', ReEncodedWindow window window' →
      words sdk window' collectionHex option = words sdk window collectionHex option

def encodeArray (bytes : List ℕ) : Value := .array (bytes.map fun b => .number (.ofNat b))

def encodeText (bytes : List ℕ) : Value := .string (bytesToHex bytes)

theorem encodes_array (bytes : List ℕ) : Encodes bytes (encodeArray bytes) := Or.inl rfl

theorem encodes_text (bytes : List ℕ) : Encodes bytes (encodeText bytes) :=
  Or.inr ⟨bytesToHex bytes, (isHex_bytesToHex bytes).toLowerCase_eq, Or.inl rfl⟩

section

variable {sdk : HexSdk} {collectionHex c : Text} {option : Option ℤ} {window : List WindowBlock}

theorem isTextCall_encoded (t : WindowTx) : (t.encoded encodes_text).IsTextCall := by
  cases t with
  | call c => exact ⟨⟨_, c.get_contract⟩, _, c.get_calldata⟩
  | other payload h => trivial

theorem words_arrays (hc : sdk.validateHex32 collectionHex = some c) (option : Option ℤ) :
    words sdk (encodedWindow encodes_array window) collectionHex option = some [] := by
  have hread (t : WindowTx) (receipt : Value) :
      readIds sdk (toLowerCase (strip0x c)) receipt (t.encoded encodes_array) = [] := by
    cases t with
    | call d =>
      have hcontract : (getTxPayloadInner (mapPayload (d.field encodeArray) d.payload)).get
          "contract" = encodeArray d.contract := d.get_contract
      refine congrArg (List.map Prod.fst) (txMentions_of_not_text (Or.inl ?_))
      rintro ⟨s, hs⟩
      cases hcontract.symm.trans hs
    | other payload h =>
      cases payload with
      | none => rfl
      | some payload => exact congrArg (List.map Prod.fst) (txMentions_of_noCall h receipt)
  have hnone : ((((encodedWindow encodes_array window).map WindowBlock.block).flatMap
      (blockMentions sdk (toLowerCase (strip0x c)))).map Prod.fst) = [] := by
    rw [List.map_flatMap, List.flatMap_map, List.flatMap_eq_nil_iff]
    intro b hb
    obtain ⟨b', -, rfl⟩ := List.mem_map.mp hb
    rw [map_fst_blockMentions, List.flatMap_eq_nil_iff]
    intro p hp
    obtain ⟨t, -, ht⟩ := List.mem_map.mp (List.fst_mem_of_mem_zipIdx hp)
    rw [← ht]
    exact hread t _
  rw [words_eq hc, hnone, firstDistinct_nil]

/-- **The scan is complete in every encoding iff there is nothing to find**; where the calls are
texts it is complete. -/
theorem complete_iff (hsdk : sdk.Lawful) (hc : sdk.validateHex32 collectionHex = some c)
    (window : List WindowBlock) (option : Option ℤ) :
    ((∀ b ∈ window, ∀ t ∈ b.transactions, t.IsTextCall) →
      words sdk window collectionHex option = some (firstDistinct (maxTokenIds option)
        (mentioned sdk (toLowerCase (strip0x c)) window))) ∧
    (Complete sdk (toLowerCase (strip0x c)) window collectionHex option ↔
      mentioned sdk (toLowerCase (strip0x c)) window = []) := by
  refine ⟨fun h => words_text hsdk hc h option, ?_, ?_⟩
  · rintro ⟨-, hsame⟩
    have harrays := hsame _ (reEncodedWindow_encoded encodes_array window)
    have htexts := hsame _ (reEncodedWindow_encoded encodes_text window)
    rw [words_arrays hc] at harrays
    rw [words_text hsdk hc ?_, ← harrays, Option.some.injEq,
      firstDistinct_eq_nil_iff (one_le_maxTokenIds option),
      ← mentioned_reEncoded (reEncodedWindow_encoded encodes_text window)] at htexts
    · exact htexts
    · intro b hb t ht
      obtain ⟨b', -, rfl⟩ := List.mem_map.mp hb
      obtain ⟨t', -, rfl⟩ := List.mem_map.mp ht
      exact isTextCall_encoded t'
  · intro hnone
    have hempty {window' : List WindowBlock}
        (h : mentioned sdk (toLowerCase (strip0x c)) window' = []) :
        words sdk window' collectionHex option = some [] := by
      rw [words_eq hc, mentions_of_mentioned_nil hsdk (length_want hsdk hc) h, firstDistinct_nil]
    refine ⟨?_, fun window' h => ?_⟩
    · rw [hempty hnone, hnone, firstDistinct_nil]
    · rw [hempty hnone, hempty ((mentioned_reEncoded h).symm.trans hnone)]

end

/-! ## A transfer in arrays -/

def hexSdk : HexSdk where
  hexToBytes t :=
    let s := strip0x t
    if s.length % 2 = 0 ∧ s.all isAnyHexDigit then some (Published.hexToBytes s) else none
  bytesToHex bytes := "0x" ++ Js.bytesToHex bytes
  validateHex32 s := if isAnyWord (strip0x s) then some ("0x" ++ strip0x s) else none

theorem lawful_hexSdk : hexSdk.Lawful where
  hexToBytes_hex bytes s hb hs := by
    have hdigits := isAnyHexDigit_of_toLowerCase hs
    have hstrip : strip0x s = s :=
      strip0x_eq_self fun c hc => ne_x_of_isAnyHexDigit (hdigits c hc)
    have hlen : s.length % 2 = 0 := by
      have hlower : (toLowerCase s).length = s.length := length_toLowerCase s
      rw [← hlower, hs, length_bytesToHex hb, Nat.mul_mod_right]
    have hread : Published.hexToBytes s = Published.hexToBytes (bytesToHex bytes) := by
      rw [Published.hexToBytes, Published.hexToBytes, h64, h64, hstrip, hs,
        (isHex_bytesToHex bytes).strip0x_eq, (isHex_bytesToHex bytes).toLowerCase_eq]
    have hprefixed : strip0x (("0x" : Text) ++ s) = s := strip0x_cons_x s
    simp only [hexSdk, hprefixed]
    rw [if_pos ⟨hlen, List.all_eq_true.mpr hdigits⟩, hread,
      Published.hexToBytes_bytesToHex hb]
  bytesToHex_eq _ := rfl
  validateHex32_word s c h := by
    obtain ⟨hword, hc⟩ := Option.ite_none_right_eq_some.mp h
    obtain rfl := Option.some.inj hc
    exact (congrArg isAnyWord (strip0x_cons_x (strip0x s))).trans hword

def collectionBytes : List ℕ := List.replicate 32 0xcc

/-- `transfer_nft(to, id)` -/
def transferCalldata : List ℕ :=
  List.replicate 31 0 ++ [4] ++ List.replicate 32 0x33 ++ List.replicate 32 0xee

def arrayCall : NftCall where
  payload := .object [("ContractCall",
    .object [("calldata", encodeArray transferCalldata), ("contract", encodeArray collectionBytes)])]
  contract := collectionBytes
  calldata := transferCalldata
  isCall := by decide +kernel
  contract_lt := by decide
  calldata_lt := by decide
  contract_encodes := Or.inl rfl
  calldata_encodes := Or.inl rfl

def arrayWindow : List WindowBlock := [⟨[.call arrayCall], []⟩]

theorem complete_arrayWindow :
    ((∀ b ∈ arrayWindow, ∀ t ∈ b.transactions, t.IsTextCall) →
      words hexSdk arrayWindow (bytesToHex collectionBytes) none = some (firstDistinct
        (maxTokenIds none) (mentioned hexSdk (toLowerCase (strip0x ("0x" ++
          bytesToHex collectionBytes))) arrayWindow))) ∧
    (Complete hexSdk (toLowerCase (strip0x ("0x" ++ bytesToHex collectionBytes))) arrayWindow
        (bytesToHex collectionBytes) none ↔
      mentioned hexSdk (toLowerCase (strip0x ("0x" ++ bytesToHex collectionBytes)))
        arrayWindow = []) :=
  complete_iff lawful_hexSdk (by decide +kernel) arrayWindow none

/-- **The id of a transfer in arrays is not found.** -/
theorem arrayWindow_incomplete : ¬ Complete hexSdk (bytesToHex collectionBytes) arrayWindow
    (bytesToHex collectionBytes) none := by
  rintro ⟨hwords, -⟩
  have hnone : words hexSdk arrayWindow (bytesToHex collectionBytes) none = some [] := by
    decide +kernel
  rw [hnone] at hwords
  exact absurd hwords (by decide +kernel)

end BoingObserver.Nft
