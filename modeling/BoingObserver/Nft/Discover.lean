import BoingObserver.Account.History
import BoingObserver.Nft.Calldata

/-!
# NFT discovery

`discoverReferenceNftTokenIdsFromHeightRange` of `reference-nft-discover.ts`: the token
ids that the calls to a collection mention in a window of blocks.

The node gives the contract and the calldata of a call as texts or as arrays of bytes;
the scan reads texts only.

* `words_collect`: the loop keeps the first distinct ids, up to a cap.
* `mentioned`: the ids that a window mentions, by the bytes of its calls.
* `txMentions_text`, `txMentions_of_not_text`: what the scan reads of a call.
* `words_text`: where the calls are texts, the scan is complete.
-/

namespace BoingObserver.Nft

open Js Rpc Payload
open Account (isFailed rowTxId)

/-! ## The scan -/

/-- A block: the payloads of its transactions (`none` stands for no transaction), and the
receipts. -/
structure NftBlock where
  transactions : Option (List (Option Value))
  receipts : Option (List Value)

structure Found where
  tokenIdWords : List Text
  mintTxIdsByTokenId : List (Text × Text)

/-- `typeof v === "string" ? v : ""` -/
def textOf (v : Value) : Text := (v.asString?).getD []

section

variable (sdk : HexSdk) (want : Text)

def txMentions (payload receipt : Value) : List (Text × Option Text) :=
  if isFailed (receipt.get "success") then []
  else if getTxPayloadKind payload ≠ .known .contractCall then []
  else
    let inner := getTxPayloadInner payload
    let contract := normalizeHex64 (strip0x (textOf (inner.get "contract")))
    if contract = [] ∨ contract ≠ want then []
    else
      let calldata := textOf (inner.get "calldata")
      if calldata = [] then []
      else
        match decodeReferenceNftCalldata sdk (.text calldata) with
        | none => []
        | some decoded =>
          (tokenIdsFromDecodedReferenceNftCall decoded).filterMap fun id =>
            match normalizeHex64 (strip0x id) with
            | [] => none
            | id64 => some (id64, rowTxId (receipt.get "tx_id"))

/-- `(block.receipts ?? [])[i] ?? null` -/
def NftBlock.receiptAt (block : NftBlock) (i : ℕ) : Value :=
  (((block.receipts.getD [])[i]?).getD .undefined).orElse .null

def blockMentions (block : NftBlock) : List (Text × Option Text) :=
  (block.transactions.getD []).zipIdx.flatMap fun p =>
    match p.1 with
    | none => []
    | some payload => txMentions sdk want payload (block.receiptAt p.2)

end

def Found.add (found : Found) (id64 : Text) (txId : Option Text) : Found where
  tokenIdWords := found.tokenIdWords ++ [id64]
  mintTxIdsByTokenId :=
    match txId with
    | some txId =>
      if (found.mintTxIdsByTokenId.lookup id64).isNone then
        found.mintTxIdsByTokenId ++ [(id64, txId)]
      else found.mintTxIdsByTokenId
    | none => found.mintTxIdsByTokenId

def collect (maxTokenIds : ℕ) : Found → List (Text × Option Text) → Found
  | found, [] => found
  | found, (id64, txId) :: rest =>
    if id64 ∈ found.tokenIdWords then collect maxTokenIds found rest
    else
      let found := found.add id64 txId
      if maxTokenIds ≤ found.tokenIdWords.length then found else collect maxTokenIds found rest

/-- `Math.min(200, Math.max(1, options?.maxTokenIds ?? 64))` -/
def maxTokenIds (option : Option ℤ) : ℕ := (min 200 (max 1 (option.getD 64))).toNat

/-- The scan of the blocks of a height window. -/
def discoverReferenceNftTokenIds (sdk : HexSdk) (window : List NftBlock) (collectionHex : Text)
    (option : Option ℤ) : Option Found :=
  (sdk.validateHex32 collectionHex).map fun c =>
    let want := toLowerCase (strip0x c)
    collect (maxTokenIds option) ⟨[], []⟩ (window.flatMap (blockMentions sdk want))

/-! ## The first distinct ids -/

/-- The first `n` distinct entries, in order. -/
def firstDistinct (n : ℕ) (l : List Text) : List Text := l.eraseDups.take n

theorem firstDistinct_nil (n : ℕ) : firstDistinct n [] = [] := by
  rw [firstDistinct, List.eraseDups_nil, List.take_nil]

theorem one_le_maxTokenIds (option : Option ℤ) : 1 ≤ maxTokenIds option := by
  rw [maxTokenIds]
  omega

theorem firstDistinct_eq_nil_iff {n : ℕ} (hn : 1 ≤ n) {l : List Text} :
    firstDistinct n l = [] ↔ l = [] := by
  cases l with
  | nil => exact iff_of_true List.take_nil rfl
  | cons id l =>
    rw [firstDistinct, List.eraseDups_cons]
    cases n with
    | zero => omega
    | succ n => exact iff_of_false (List.cons_ne_nil _ _) (List.cons_ne_nil _ _)

/-- **The loop keeps the first distinct ids**, up to the cap. -/
theorem words_collect_append {n : ℕ} (l : List (Text × Option Text)) {found : Found}
    (hlen : found.tokenIdWords.length < n) :
    (collect n found l).tokenIdWords = (found.tokenIdWords ++
      ((l.map Prod.fst).filter fun id => id ∉ found.tokenIdWords).eraseDups).take n := by
  induction l generalizing found with
  | nil =>
    rw [collect, List.map_nil, List.filter_nil, List.eraseDups_nil, List.append_nil,
      List.take_of_length_le hlen.le]
  | cons m l ih =>
    obtain ⟨id, txId⟩ := m
    rw [collect, List.map_cons]
    by_cases hmem : id ∈ found.tokenIdWords
    · rw [if_pos hmem, List.filter_cons_of_neg (by simpa using hmem)]
      exact ih hlen
    · have hwords : (found.add id txId).tokenIdWords = found.tokenIdWords ++ [id] := rfl
      have hlength : (found.tokenIdWords ++ [id]).length = found.tokenIdWords.length + 1 :=
        List.length_append
      rw [if_neg hmem, List.filter_cons_of_pos (by simpa using hmem), List.eraseDups_cons,
        List.append_cons]
      dsimp only
      rw [hwords, hlength]
      by_cases hcap : n ≤ found.tokenIdWords.length + 1
      · rw [if_pos hcap, hwords, List.take_append_of_le_length (by omega),
          List.take_of_length_le (by omega)]
      · have hrest : ((l.map Prod.fst).filter fun b => b ∉ found.tokenIdWords).filter
            (fun b => !b == id) =
              (l.map Prod.fst).filter fun b => b ∉ found.tokenIdWords ++ [id] := by
          rw [List.filter_filter]
          refine List.filter_congr fun b _ => ?_
          by_cases hb : b = id
          · simp [hb]
          · simp [hb]
        rw [if_neg hcap, ih (by rw [hwords, hlength]; omega), hwords, hrest]

theorem words_collect {n : ℕ} (hn : 1 ≤ n) (l : List (Text × Option Text)) :
    (collect n ⟨[], []⟩ l).tokenIdWords = firstDistinct n (l.map Prod.fst) := by
  rw [words_collect_append l (show ([] : List Text).length < n from hn), firstDistinct,
    List.nil_append, List.filter_eq_self.mpr fun id _ => by simp]

/-! ## Windows of calls -/

structure NftCall where
  payload : Value
  contract : List ℕ
  calldata : List ℕ
  isCall : getTxPayloadKind payload = .known .contractCall
  contract_lt : ∀ b ∈ contract, b < 256
  calldata_lt : ∀ b ∈ calldata, b < 256
  contract_encodes : Encodes contract ((getTxPayloadInner payload).get "contract")
  calldata_encodes : Encodes calldata ((getTxPayloadInner payload).get "calldata")

def IsText (v : Value) : Prop := ∃ s, v = .string s

def NoBytes (v : Value) : Prop := ¬ IsText v ∧ ∀ bytes, ¬ Encodes bytes v

/-- A transaction that is not there, is no call, or is one without a contract or calldata. -/
def NoCall (payload : Option Value) : Prop :=
  ∀ v, payload = some v → getTxPayloadKind v = .known .contractCall →
    NoBytes ((getTxPayloadInner v).get "contract") ∨ NoBytes ((getTxPayloadInner v).get "calldata")

inductive WindowTx
  | call (c : NftCall)
  | other (payload : Option Value) (h : NoCall payload)

def WindowTx.payload : WindowTx → Option Value
  | .call c => some c.payload
  | .other payload _ => payload

structure WindowBlock where
  transactions : List WindowTx
  receipts : List Value

def WindowBlock.block (b : WindowBlock) : NftBlock :=
  ⟨some (b.transactions.map WindowTx.payload), some b.receipts⟩

section

variable (sdk : HexSdk) (want : Text)

def calldataIds (calldata : List ℕ) : List Text :=
  match decodeReferenceNftCalldata sdk (.bytes calldata) with
  | none => []
  | some decoded => (tokenIdsFromDecodedReferenceNftCall decoded).map strip0x

/-- The token ids that a transaction mentions in a call to the collection, unless it failed. -/
def WindowTx.ids (receipt : Value) : WindowTx → List Text
  | .call c =>
    if isFailed (receipt.get "success") ∨ bytesToHex c.contract ≠ want then []
    else calldataIds sdk c.calldata
  | .other _ _ => []

def WindowBlock.ids (b : WindowBlock) : List Text :=
  b.transactions.zipIdx.flatMap fun p => p.1.ids sdk want (b.block.receiptAt p.2)

/-- **The ids that a window mentions**, in chain order. -/
def mentioned (window : List WindowBlock) : List Text := window.flatMap (WindowBlock.ids sdk want)

end

/-- The words the scan returns for a window; `none` is a throw. -/
def words (sdk : HexSdk) (window : List WindowBlock) (collectionHex : Text) (option : Option ℤ) :
    Option (List Text) :=
  (discoverReferenceNftTokenIds sdk (window.map WindowBlock.block) collectionHex option).map
    Found.tokenIdWords

def WindowTx.IsTextCall : WindowTx → Prop
  | .call c => IsText ((getTxPayloadInner c.payload).get "contract") ∧
      IsText ((getTxPayloadInner c.payload).get "calldata")
  | .other _ _ => True

/-! ## What the scan reads -/

section

variable {sdk : HexSdk} {want : Text}

theorem textOf_of_not_isText {v : Value} (h : ¬ IsText v) : textOf v = [] := by
  cases v with
  | string s => exact absurd ⟨s, rfl⟩ h
  | _ => rfl

/-- **A call without a text for its contract or its calldata is dropped.** -/
theorem txMentions_of_not_text {payload receipt : Value}
    (h : ¬ IsText ((getTxPayloadInner payload).get "contract") ∨
      ¬ IsText ((getTxPayloadInner payload).get "calldata")) :
    txMentions sdk want payload receipt = [] := by
  rw [txMentions]
  split_ifs with hfailed hkind
  · rfl
  · rfl
  · dsimp only
    rcases h with h | h
    · rw [textOf_of_not_isText h, if_pos (Or.inl (by decide))]
    · rw [textOf_of_not_isText h, if_pos rfl, ite_self]

theorem strip0x_of_encodes {bytes : List ℕ} {s : Text} (h : Encodes bytes (.string s)) :
    toLowerCase (strip0x s) = bytesToHex bytes := by
  rcases h with h | ⟨digits, hdigits, h | h⟩
  · cases h
  · obtain rfl : s = digits := Value.string.inj h
    rw [strip0x_eq_self fun c hc =>
      ne_x_of_isAnyHexDigit (isAnyHexDigit_of_toLowerCase hdigits c hc), hdigits]
  · obtain rfl : s = '0' :: 'x' :: digits := Value.string.inj h
    rw [strip0x_cons_x, hdigits]

theorem normalizeHex64_digits {bytes : List ℕ} {s : Text} (hs : toLowerCase s = bytesToHex bytes) :
    normalizeHex64 s = if (bytesToHex bytes).length = 64 then bytesToHex bytes else [] := by
  have hdigits := isAnyHexDigit_of_toLowerCase hs
  have hstrip : stripHexPrefix s = s := by
    rw [stripHexPrefix, trim_digits hs,
      strip0x_eq_self fun c hc => ne_x_of_isAnyHexDigit (hdigits c hc)]
  have hlen : s.length = (bytesToHex bytes).length := by
    rw [← hs, toLowerCase, List.length_map]
  have hword : isAnyWord s = true ↔ (bytesToHex bytes).length = 64 := by
    rw [isAnyWord, List.all_eq_true.mpr hdigits, Bool.and_true, decide_eq_true_iff, hlen]
  rw [normalizeHex64, hstrip, hs]
  exact if_congr hword rfl rfl

theorem IsTokenId.normalizeHex64_eq (hsdk : sdk.Lawful) {id : Text} (h : IsTokenId sdk id) :
    normalizeHex64 (strip0x id) = strip0x id ∧ strip0x id ≠ [] := by
  obtain ⟨word, hlen, hb, rfl⟩ := h
  have hstrip : strip0x (sdk.bytesToHex word) = bytesToHex word := by
    rw [hsdk.bytesToHex_eq]
    exact strip0x_cons_x _
  have h64 : (bytesToHex word).length = 64 := by rw [length_bytesToHex hb, hlen]
  rw [hstrip, normalizeHex64_digits (isHex_bytesToHex word).toLowerCase_eq, if_pos h64]
  refine ⟨rfl, fun e => ?_⟩
  rw [e] at h64
  cases h64

/-- A text is compared with the collection as its bytes are. -/
theorem contract_iff {bytes : List ℕ} {s : Text} (h : Encodes bytes (.string s))
    (hwant : want.length = 64) :
    (normalizeHex64 (strip0x s) = [] ∨ normalizeHex64 (strip0x s) ≠ want) ↔
      bytesToHex bytes ≠ want := by
  rw [normalizeHex64_digits (strip0x_of_encodes h)]
  by_cases hlen : (bytesToHex bytes).length = 64
  · rw [if_pos hlen]
    refine or_iff_right ?_
    intro e
    rw [e] at hlen
    cases hlen
  · rw [if_neg hlen]
    refine iff_of_true (Or.inl rfl) ?_
    rintro rfl
    exact hlen hwant

theorem map_fst_ids (hsdk : sdk.Lawful) {calldata : List ℕ} (hb : ∀ b ∈ calldata, b < 256)
    {decoded : DecodedReferenceNftCall}
    (h : decodeReferenceNftCalldata sdk (.bytes calldata) = some decoded) (txId : Option Text) :
    ((tokenIdsFromDecodedReferenceNftCall decoded).filterMap fun id =>
      match normalizeHex64 (strip0x id) with
      | [] => none
      | id64 => some (id64, txId)).map Prod.fst =
      (tokenIdsFromDecodedReferenceNftCall decoded).map strip0x := by
  have hall : ∀ id ∈ tokenIdsFromDecodedReferenceNftCall decoded, IsTokenId sdk id :=
    fun id hid => tokenIds_words hb h hid
  generalize tokenIdsFromDecodedReferenceNftCall decoded = ids at hall
  rw [List.map_filterMap, ← List.filterMap_eq_map]
  refine List.filterMap_congr fun id hid => ?_
  obtain ⟨hnormal, hne⟩ := (hall id hid).normalizeHex64_eq hsdk
  rw [hnormal]
  cases hid : strip0x id with
  | nil => exact absurd hid hne
  | cons c cs => exact congrArg some hid.symm

/-- **A call in texts gives its mentions.** -/
theorem txMentions_text (hsdk : sdk.Lawful) (hwant : want.length = 64) (c : NftCall)
    (receipt : Value) (htext : (WindowTx.call c).IsTextCall) :
    (txMentions sdk want c.payload receipt).map Prod.fst =
      (WindowTx.call c).ids sdk want receipt := by
  obtain ⟨⟨s, hs⟩, t, ht⟩ := htext
  have hcontract := c.contract_encodes
  have hcalldata := c.calldata_encodes
  rw [hs] at hcontract
  rw [ht] at hcalldata
  have htextS : textOf (.string s) = s := rfl
  have htextT : textOf (.string t) = t := rfl
  rw [txMentions, WindowTx.ids]
  dsimp only
  rw [hs, ht, htextS, htextT]
  by_cases hfailed : isFailed (receipt.get "success") = true
  · rw [if_pos hfailed, if_pos (Or.inl hfailed)]
    rfl
  rw [if_neg hfailed, if_neg (not_not.mpr c.isCall)]
  by_cases haddressed : bytesToHex c.contract ≠ want
  · rw [if_pos ((contract_iff hcontract hwant).mpr haddressed), if_pos (Or.inr haddressed)]
    rfl
  rw [if_neg (mt (contract_iff hcontract hwant).mp haddressed),
    if_neg (not_or.mpr ⟨hfailed, haddressed⟩), calldataIds]
  by_cases hempty : t = []
  · subst hempty
    have hnone : c.calldata = [] := by
      have hlen := length_bytesToHex c.calldata_lt
      rw [← strip0x_of_encodes hcalldata] at hlen
      exact List.length_eq_zero_iff.mp (Nat.mul_eq_zero.mp hlen.symm |>.resolve_left (by omega))
    rw [if_pos rfl, hnone]
    rfl
  · rw [if_neg hempty, decodeReferenceNftCalldata_text hsdk c.calldata_lt hcalldata hempty]
    cases hdecode : decodeReferenceNftCalldata sdk (.bytes c.calldata) with
    | none => rfl
    | some decoded => exact map_fst_ids hsdk c.calldata_lt hdecode _

theorem txMentions_of_noCall {payload : Value} (h : NoCall (some payload)) (receipt : Value) :
    txMentions sdk want payload receipt = [] := by
  by_cases hkind : getTxPayloadKind payload = .known .contractCall
  · exact txMentions_of_not_text ((h payload rfl hkind).imp And.left And.left)
  · rw [txMentions, if_pos hkind, ite_self]

/-- **A transaction is read as its ids, or not at all.** -/
theorem mentions_of_tx (hsdk : sdk.Lawful) (hwant : want.length = 64) (t : WindowTx)
    (receipt : Value) :
    let mentions := (match t.payload with
      | none => []
      | some payload => txMentions sdk want payload receipt).map Prod.fst
    (t.IsTextCall → mentions = t.ids sdk want receipt) ∧
      (t.ids sdk want receipt = [] → mentions = []) := by
  cases t with
  | other payload h =>
    cases payload with
    | none => exact ⟨fun _ => rfl, fun _ => rfl⟩
    | some payload =>
      have hnone : txMentions sdk want payload receipt = [] := txMentions_of_noCall h receipt
      change (_ → (txMentions sdk want payload receipt).map Prod.fst = _) ∧
        (_ → (txMentions sdk want payload receipt).map Prod.fst = [])
      rw [hnone]
      exact ⟨fun _ => rfl, fun _ => rfl⟩
  | call c =>
    refine ⟨txMentions_text hsdk hwant c receipt, fun hids => ?_⟩
    by_cases htext : (WindowTx.call c).IsTextCall
    · exact (txMentions_text hsdk hwant c receipt htext).trans hids
    · exact congrArg (List.map Prod.fst) (txMentions_of_not_text (not_and_or.mp htext))

def readIds (sdk : HexSdk) (want : Text) (receipt : Value) (t : WindowTx) : List Text :=
  (match t.payload with
    | none => []
    | some payload => txMentions sdk want payload receipt).map Prod.fst

theorem map_fst_blockMentions (b : WindowBlock) :
    (blockMentions sdk want b.block).map Prod.fst =
      b.transactions.zipIdx.flatMap fun p => readIds sdk want (b.block.receiptAt p.2) p.1 := by
  have htxs : b.block.transactions.getD [] = b.transactions.map WindowTx.payload := rfl
  rw [blockMentions, htxs, List.zipIdx_map, List.flatMap_map, List.map_flatMap]
  rfl

/-- **A window of texts is read in full.** -/
theorem map_fst_mentions_text (hsdk : sdk.Lawful) (hwant : want.length = 64)
    {window : List WindowBlock} (h : ∀ b ∈ window, ∀ t ∈ b.transactions, t.IsTextCall) :
    ((window.map WindowBlock.block).flatMap (blockMentions sdk want)).map Prod.fst =
      mentioned sdk want window := by
  rw [List.map_flatMap, List.flatMap_map, mentioned]
  refine List.flatMap_congr fun b hb => ?_
  rw [map_fst_blockMentions, WindowBlock.ids]
  refine List.flatMap_congr fun p hp => ?_
  exact (mentions_of_tx hsdk hwant p.1 _).1 (h b hb p.1 (List.fst_mem_of_mem_zipIdx hp))

/-- Where no id is mentioned, none is read. -/
theorem mentions_of_mentioned_nil (hsdk : sdk.Lawful) (hwant : want.length = 64)
    {window : List WindowBlock} (h : mentioned sdk want window = []) :
    ((window.map WindowBlock.block).flatMap (blockMentions sdk want)).map Prod.fst = [] := by
  rw [List.map_flatMap, List.flatMap_map, List.flatMap_eq_nil_iff]
  intro b hb
  have hids : b.ids sdk want = [] := List.flatMap_eq_nil_iff.mp h b hb
  rw [map_fst_blockMentions, List.flatMap_eq_nil_iff]
  intro p hp
  exact (mentions_of_tx hsdk hwant p.1 _).2 (List.flatMap_eq_nil_iff.mp hids p hp)

end

/-! ## Windows of texts -/

section

variable {sdk : HexSdk} {collectionHex c : Text} {option : Option ℤ} {window : List WindowBlock}

theorem words_eq (hc : sdk.validateHex32 collectionHex = some c) (window : List WindowBlock)
    (option : Option ℤ) : words sdk window collectionHex option =
      some (firstDistinct (maxTokenIds option) (((window.map WindowBlock.block).flatMap
        (blockMentions sdk (toLowerCase (strip0x c)))).map Prod.fst)) := by
  rw [words, discoverReferenceNftTokenIds, hc, Option.map_some, Option.map_some,
    words_collect (one_le_maxTokenIds option)]

theorem length_want (hsdk : sdk.Lawful) (hc : sdk.validateHex32 collectionHex = some c) :
    (toLowerCase (strip0x c)).length = 64 := by
  have hword := hsdk.validateHex32_word _ _ hc
  rw [isAnyWord, Bool.and_eq_true, decide_eq_true_iff] at hword
  rw [length_toLowerCase, hword.1]

/-- **Where the calls are texts, the scan is complete.** -/
theorem words_text (hsdk : sdk.Lawful) (hc : sdk.validateHex32 collectionHex = some c)
    (h : ∀ b ∈ window, ∀ t ∈ b.transactions, t.IsTextCall) (option : Option ℤ) :
    words sdk window collectionHex option = some (firstDistinct (maxTokenIds option)
      (mentioned sdk (toLowerCase (strip0x c)) window)) := by
  rw [words_eq hc, map_fst_mentions_text hsdk (length_want hsdk hc) h]

end

end BoingObserver.Nft
