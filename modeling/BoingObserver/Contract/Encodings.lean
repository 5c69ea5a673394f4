import BoingObserver.Contract.Decode
import BoingObserver.Js.Coerce
import BoingObserver.Rpc.Hex

/-!
# The two encodings of calldata

A node returns calldata as a hex string or as an array of byte numbers.
`calldataWords` reads only the string, so on the array nothing is decoded and
only the access list is referenced.

* `calldataWords_bytesToHex`: the words of a hex string, whatever its prefix and
  letter case, are the words of its bytes.
* `decodeContractCall_eq_none_iff`: what is decoded at all, as a property of the
  words (`Accepts`).
* `encodings_agree_iff`: when the two encodings give the same result.
-/

namespace BoingObserver.Contract

open Js

/-! ## Bytes -/

def bytesValue (bytes : List ℕ) : Value := .array (bytes.map fun b => .number (.ofNat b))

def byteWords (bytes : List ℕ) : List Text :=
  if bytes.length % 32 = 0 then chunks 64 (bytesToHex bytes) else []

theorem trim_eq_self_of_isHex {s : Text} (h : IsHex (toLowerCase (strip0x s))) : trim s = s := by
  have hmap : ∀ c ∈ strip0x s, isSpace c = false := fun c hc =>
    Rpc.isSpace_of_isAnyHexDigit
      (Rpc.isAnyHexDigit_of_lowerChar (h _ (List.mem_map.mpr ⟨c, hc, rfl⟩)))
  refine trim_eq_self fun c hc => ?_
  rw [strip0x] at hmap
  split_ifs at hmap with hp
  · rw [← List.take_append_drop 2 s, List.mem_append] at hc
    rcases hc with hc | hc
    · rcases hp with e | e
      · rw [e] at hc
        rcases List.mem_pair.mp hc with rfl | rfl <;> decide
      · rw [e] at hc
        rcases List.mem_pair.mp hc with rfl | rfl <;> decide
    · exact hmap c hc
  · exact hmap c hc

/-- **The words of a hex string are the words of its bytes.** -/
theorem calldataWords_bytesToHex {s : Text} {bytes : List ℕ} (hb : ∀ b ∈ bytes, b < 256)
    (hs : toLowerCase (strip0x s) = bytesToHex bytes) :
    calldataWords (.string s) = if byteWords bytes = [] then none else some (byteWords bytes) := by
  have hhex := isHex_bytesToHex bytes
  have hlen := length_bytesToHex hb
  have htrim := trim_eq_self_of_isHex (s := s) (hs ▸ hhex)
  simp only [calldataWords, htrim, hs, hlen, hhex, not_true_eq_false, or_false]
  by_cases h32 : bytes.length % 32 = 0
  · have hw : byteWords bytes = chunks 64 (bytesToHex bytes) := if_pos h32
    have hnil : chunks 64 (bytesToHex bytes) = [] ↔ 2 * bytes.length = 0 := by
      rw [← List.length_eq_zero_iff, chunks, List.length_map, List.length_range, hlen]
      omega
    by_cases h0 : 2 * bytes.length = 0
    · rw [if_pos (Or.inl h0), if_pos (hw.trans (hnil.mpr h0))]
    · rw [if_neg (by omega), if_neg (hw ▸ mt hnil.mp h0), hw]
  · have hw : byteWords bytes = [] := if_neg h32
    rw [if_pos (by omega), if_pos hw]

/-! ## What is decoded at all -/

/-- Some write function of the table has the selector and the number of words. -/
def AcceptsTable (fns : List ContractFunction) (words : List Text) : Prop :=
  ∃ f ∈ fns, calls words f = true

def AcceptsPool (words : List Text) : Prop :=
  AcceptsTable poolCustody words ∨ AcceptsTable poolLedger words

/-- One to four hops, three words each, with direction words `0` or `1`. -/
def AcceptsCustodyRouter (words : List Text) : Prop :=
  selectorOf words = some 0xf1 ∧ ∃ n, wordU128 (words.getD 1 []) = some n ∧ 1 ≤ n ∧ n ≤ 4 ∧
    words.length = 6 + 3 * n ∧ ∀ i < n, wordU128 (words.getD (7 + 3 * i) []) = some 0 ∨
      wordU128 (words.getD (7 + 3 * i) []) = some 1

def AcceptsLedgerRouter (words : List Text) : Prop :=
  (∃ sel ∈ [0xe0, 0xe1, 0xe2], selectorOf words = some sel) ∧ 3 ≤ words.length ∧
    AcceptsPool (words.drop 2)

/-- What the candidate `id` does not pass over; an inherited key throws. -/
def Accepts (words : List Text) (id : Text) : Prop :=
  if id = "custody-router" then AcceptsCustodyRouter words
  else if id = "ledger-router" then AcceptsLedgerRouter words
  else
    match recordGet contractInterfaces id with
    | .absent => False
    | .inherited => True
    | .own iface => AcceptsTable iface.functions words

/-- Word 0 is a selector and some candidate accepts the words. -/
def AcceptsCall (candidates : List Text) (words : List Text) : Prop :=
  selectorOf words ≠ none ∧ ∃ id ∈ candidates, Accepts words id

theorem AcceptsTable.selector {fns : List ContractFunction} {words : List Text}
    (h : AcceptsTable fns words) : selectorOf words ≠ none := by
  obtain ⟨f, -, hf⟩ := h
  simp only [calls, decide_eq_true_eq] at hf
  rw [hf.1]
  exact Option.some_ne_none _

theorem decodeWithFunctions_eq_none_iff_accepts (id contract : Text) {words : List Text}
    {fns : List ContractFunction} :
    decodeWithFunctions id contract words fns = none ↔ ¬ AcceptsTable fns words := by
  rw [decodeWithFunctions_eq_none_iff, AcceptsTable]
  simp only [not_exists, not_and, Bool.not_eq_true]

theorem or_pools_eq_none_iff (contract : Text) {words : List Text} :
    (decodeWithFunctions "pool-custody" contract words poolCustody).or
        (decodeWithFunctions "pool-ledger" contract words poolLedger) = none ↔
      ¬ AcceptsPool words := by
  rw [Option.or_eq_none_iff, decodeWithFunctions_eq_none_iff_accepts,
    decodeWithFunctions_eq_none_iff_accepts, AcceptsPool, not_or]

theorem mapM_eq_none_iff {α β : Type} {f : α → Option β} :
    ∀ {l : List α}, l.mapM f = none ↔ ∃ a ∈ l, f a = none
  | [] => by simp
  | a :: l => by
    rw [List.mapM_cons]
    cases h : f a with
    | none => simp [h]
    | some b =>
      have ih := mapM_eq_none_iff (f := f) (l := l)
      cases hl : l.mapM f with
      | none => simpa [h, hl] using ih.mp hl
      | some bs => simpa [h, hl] using mt ih.mpr (by rw [hl]; exact Option.some_ne_none _)

theorem routerHop_eq_none_iff {words : List Text} {i : ℕ} :
    routerHop words i = none ↔ ¬ (wordU128 (words.getD (7 + 3 * i) []) = some 0 ∨
      wordU128 (words.getD (7 + 3 * i) []) = some 1) := by
  rw [routerHop]
  cases wordU128 (words.getD (7 + 3 * i) []) with
  | none => simp
  | some dir =>
    by_cases h : dir ≠ 0 ∧ dir ≠ 1
    · simp [h]
    · have hd : dir = 0 ∨ dir = 1 := by omega
      simp [h, hd]

theorem decodeCustodyRouter_eq_none_iff (contract : Text) {words : List Text} :
    decodeCustodyRouter contract words = none ↔ ¬ AcceptsCustodyRouter words := by
  constructor
  · rintro h ⟨hsel, n, hn, h1, h4, hlen, hdir⟩
    rw [decodeCustodyRouter, if_neg (by rintro (h | h); exacts [h hsel, by omega]), hn] at h
    dsimp only at h
    rw [if_neg (by omega), if_neg (not_not.mpr hlen)] at h
    cases hm : (List.range n).mapM (routerHop words) with
    | none =>
      obtain ⟨i, hi, hnone⟩ := mapM_eq_none_iff.mp hm
      exact routerHop_eq_none_iff.mp hnone (hdir i (List.mem_range.mp hi))
    | some hops => rw [hm] at h; cases h
  · intro h
    rw [Option.eq_none_iff_forall_not_mem]
    intro call hc
    obtain ⟨n, hops, hn, h1, h4, hlen, hm, -⟩ := decodeCustodyRouter_eq_some hc
    refine h ⟨?_, n, hn, h1, h4, hlen, fun i hi => ?_⟩
    · by_contra hsel
      rw [decodeCustodyRouter, if_pos (Or.inl hsel)] at hc
      cases hc
    · by_contra hdir
      have hnone := mapM_eq_none_iff.mpr
        ⟨i, List.mem_range.mpr hi, routerHop_eq_none_iff.mpr hdir⟩
      rw [hm] at hnone
      cases hnone

theorem decodeLedgerRouter_eq_none_iff {contract : Text} {words : List Text}
    (hw : ∀ w ∈ words, IsWord w) :
    decodeLedgerRouter contract words = .ok none ↔ ¬ AcceptsLedgerRouter words := by
  rw [decodeLedgerRouter]
  cases hs : selectorOf words with
  | none => simp [AcceptsLedgerRouter, hs]
  | some sel =>
    dsimp only
    by_cases hc : sel ∉ [0xe0, 0xe1, 0xe2] ∨ words.length < 3
    · rw [if_pos hc, AcceptsLedgerRouter, hs]
      refine iff_of_true rfl ?_
      rintro ⟨⟨s, hm, e⟩, hlen, -⟩
      obtain rfl := Option.some.inj e
      rcases hc with hc | hc
      · exact hc hm
      · omega
    · have hsel : sel ∈ [0xe0, 0xe1, 0xe2] := by tauto
      rw [if_neg hc, decodePoolCall_forwarded hw (by omega)]
      have hacc : AcceptsLedgerRouter words ↔ AcceptsPool (words.drop 2) :=
        ⟨fun h => h.2.2, fun h => ⟨⟨sel, hsel, hs⟩, by omega, h⟩⟩
      rw [hacc]
      cases hi : selectorOf (words.drop 2) with
      | none =>
        refine iff_of_true rfl ?_
        rintro (h | h) <;> exact h.selector hi
      | some s =>
        dsimp only
        rw [← or_pools_eq_none_iff (toLowerCase (strip0x (words.getD 1 [])))]
        cases (decodeWithFunctions "pool-custody" (toLowerCase (strip0x (words.getD 1 [])))
          (words.drop 2) poolCustody).or (decodeWithFunctions "pool-ledger"
            (toLowerCase (strip0x (words.getD 1 []))) (words.drop 2) poolLedger) with
        | none => exact iff_of_true rfl rfl
        | some inner => exact iff_of_false (fun h => by cases h) (fun h => by cases h)

theorem decodeAs_eq_none_iff {contract : Text} {words : List Text} (hw : ∀ w ∈ words, IsWord w)
    {id : Text} :
    decodeAs decodeLedgerRouter contract words id = .ok none ↔ ¬ Accepts words id := by
  rw [decodeAs, Accepts]
  by_cases h1 : id = "custody-router"
  · rw [if_pos h1, if_pos h1, ← decodeCustodyRouter_eq_none_iff contract]
    exact ⟨Except.ok.inj, congrArg _⟩
  rw [if_neg h1, if_neg h1]
  by_cases h2 : id = "ledger-router"
  · rw [if_pos h2, if_pos h2, decodeLedgerRouter_eq_none_iff hw]
  rw [if_neg h2, if_neg h2]
  cases recordGet contractInterfaces id with
  | absent => simp
  | inherited => simp
  | own iface =>
    dsimp only
    rw [← decodeWithFunctions_eq_none_iff_accepts id contract]
    exact ⟨Except.ok.inj, congrArg _⟩

theorem tryCandidates_eq_none_iff {decode : Text → Except JsError (Option DecodedCall)} :
    ∀ {ids : List Text}, tryCandidates decode ids = .ok none ↔ ∀ id ∈ ids, decode id = .ok none
  | [] => by simp
  | id :: ids => by
    have ih : tryCandidates decode ids = .ok none ↔ ∀ id ∈ ids, decode id = .ok none :=
      tryCandidates_eq_none_iff
    rw [List.forall_mem_cons, tryCandidates, ← ih]
    cases h : decode id with
    | error e => exact iff_of_false (fun h => by cases h) (fun h => by cases h.1)
    | ok d =>
      cases d with
      | none => exact ⟨fun h => ⟨rfl, h⟩, fun h => h.2⟩
      | some d => exact iff_of_false (fun h => by cases h) (fun h => by cases h.1)

/-- **What is decoded at all.** -/
theorem decodeContractCall_eq_none_iff {input : CallInput} {words : List Text}
    (hc : calldataWords input.calldata = some words) :
    decodeContractCall input = .ok none ↔ ¬ AcceptsCall input.candidates words := by
  have hw := isWord_of_calldataWords hc
  rw [decodeContractCall, decodeWith, AcceptsCall]
  cases hs : selectorOf words with
  | none => simp [hc, hs]
  | some sel =>
    simp only [hc, hs]
    rw [tryCandidates_eq_none_iff]
    simp [decodeAs_eq_none_iff hw]

/-! ## When the encodings agree -/

theorem decodeContractCall_bytes (contract : Text) (bytes : List ℕ) (interfaceId : Option Text)
    (isPool : Bool) :
    decodeContractCall ⟨contract, bytesValue bytes, interfaceId, isPool⟩ = .ok none := rfl

/-- **The encodings agree exactly when nothing is decoded and the access list already has the
full-width words.** -/
theorem encodings_agree_iff {s : Text} {bytes : List ℕ} (hb : ∀ b ∈ bytes, b < 256)
    (hs : toLowerCase (strip0x s) = bytesToHex bytes) (contract : Text) (interfaceId : Option Text)
    (isPool : Bool) (accessList : List Text) :
    (decodeContractCall ⟨contract, .string s, interfaceId, isPool⟩ =
        decodeContractCall ⟨contract, bytesValue bytes, interfaceId, isPool⟩ ∧
      ∀ id, id ∈ referencedIds (.string s) accessList ↔
        id ∈ referencedIds (bytesValue bytes) accessList) ↔
    ¬ AcceptsCall (CallInput.candidates ⟨contract, .string s, interfaceId, isPool⟩)
        (byteWords bytes) ∧
      ∀ w ∈ byteWords bytes, isFullWidth w = true → w ∈ listedIds accessList := by
  have hwords := calldataWords_bytesToHex hb hs
  refine and_congr ?_ ?_
  · rw [decodeContractCall_bytes]
    by_cases h0 : byteWords bytes = []
    · rw [if_pos h0] at hwords
      refine iff_of_true ?_ ?_
      · rw [decodeContractCall, decodeWith, hwords]
      · rw [h0]
        exact fun h => h.1 rfl
    · rw [if_neg h0] at hwords
      exact decodeContractCall_eq_none_iff hwords
  · have hstr : (calldataWords (.string s)).getD [] = byteWords bytes := by
      rw [hwords]
      split_ifs with h0
      · exact h0.symm
      · rfl
    have harr : (calldataWords (bytesValue bytes)).getD [] = [] := rfl
    simp only [referencedIds, hstr, harr, List.mem_eraseDups, List.filter_nil, List.nil_append,
      List.mem_append, List.mem_filter]
    constructor
    · intro h w hw hfull
      exact (h w).mp (Or.inl ⟨hw, hfull⟩)
    · intro h id
      exact ⟨fun h' => h'.elim (fun hw => h id hw.1 hw.2) fun h => h, Or.inr⟩

/-- A token transfer of `7`, as bytes. -/
def transferBytes : List ℕ :=
  List.replicate 31 0 ++ [1] ++ List.replicate 32 0xab ++ List.replicate 31 0 ++ [7]

/-- Agreement for a call of an unknown contract whose one full-width word is in the access list. -/
theorem encodings_agree_listed :
    (decodeContractCall ⟨"cd", .string (bytesToHex transferBytes), none, false⟩ =
        decodeContractCall ⟨"cd", bytesValue transferBytes, none, false⟩ ∧
      ∀ id, id ∈ referencedIds (.string (bytesToHex transferBytes))
        [bytesToHex (List.replicate 32 0xab)] ↔
        id ∈ referencedIds (bytesValue transferBytes) [bytesToHex (List.replicate 32 0xab)]) ↔
    ¬ AcceptsCall (CallInput.candidates ⟨"cd", .string (bytesToHex transferBytes), none, false⟩)
        (byteWords transferBytes) ∧
      ∀ w ∈ byteWords transferBytes, isFullWidth w = true →
        w ∈ listedIds [bytesToHex (List.replicate 32 0xab)] :=
  encodings_agree_iff (by simp [transferBytes])
    (by rw [(isHex_bytesToHex _).strip0x_eq, (isHex_bytesToHex _).toLowerCase_eq]) _ _ _ _

set_option maxRecDepth 4000 in
/-- The byte array of a token transfer is not decoded; its hex text is. -/
theorem transferBytes_undecoded :
    decodeContractCall ⟨"cd", .string (bytesToHex transferBytes), some "fungible-v1", false⟩ =
        .ok (some (TableCall "fungible-v1" "cd" (fungibleV1.head (by decide))
          (byteWords transferBytes))) ∧
      decodeContractCall ⟨"cd", bytesValue transferBytes, some "fungible-v1", false⟩ =
        .ok none :=
  ⟨rfl, rfl⟩

end BoingObserver.Contract
