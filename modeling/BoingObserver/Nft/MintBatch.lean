import BoingObserver.Nft.Complete
import BoingObserver.Published.Words

/-!
# Batch mints

The round trip of `mint_batch` calldata: the selector, the recipient, the count, the ids
and the hashes, one word each, with zeros after them.

* `wordAt_layout`: the words of calldata are read where they stand.
* `mintBatch_roundTrip`: a batch is decoded as it was encoded; cut short, or with more
  than zeros after it, it is not decoded.
-/

namespace BoingObserver.Nft

open Js Payload
open Published (IsWord beBytes beBytes_add foldl_beBytes isWord_beBytes)

/-! ## Layouts -/

abbrev ByteWord : Type := {w : List ℕ // IsWord w}

def ByteWord.ofNat (n : ℕ) : ByteWord := ⟨beBytes 32 n, isWord_beBytes n⟩

def ByteWord.hex (w : ByteWord) : Text := "0x" ++ bytesToHex w.val

def layout (ws : List ByteWord) : List ℕ := ws.flatMap Subtype.val

section

variable {ws : List ByteWord}

theorem lt_of_mem_layout {b : ℕ} (h : b ∈ layout ws) : b < 256 := by
  obtain ⟨w, -, hb⟩ := List.mem_flatMap.mp h
  exact w.property.bytes b hb

theorem length_layout (ws : List ByteWord) : (layout ws).length = 32 * ws.length := by
  induction ws with
  | nil => rfl
  | cons w ws ih =>
    rw [layout, List.flatMap_cons, List.length_append, w.property.length, ← layout, ih,
      List.length_cons]
    omega

/-- **The words are read where they stand.** -/
theorem wordAt_layout {w : ByteWord} {i : ℕ} (h : ws[i]? = some w) (rest : List ℕ) :
    wordAt (layout ws ++ rest) (32 * i) = w.val := by
  induction ws generalizing i with
  | nil => cases h
  | cons v ws ih =>
    have hlen := v.property.length
    rw [layout, List.flatMap_cons, ← layout, List.append_assoc]
    cases i with
    | zero =>
      obtain rfl : v = w := Option.some.inj h
      rw [wordAt, Nat.mul_zero, List.drop_zero, ← hlen, List.take_left]
    | succ i =>
      have hdrop : 32 * (i + 1) = v.val.length + 32 * i := by omega
      rw [wordAt, hdrop, List.drop_length_add_append, ← wordAt, ih h]

theorem wordAt_take {bytes : List ℕ} {offset j : ℕ} (h : offset + 32 ≤ j) :
    wordAt (bytes.take j) offset = wordAt bytes offset := by
  rw [wordAt, wordAt, List.drop_take, List.take_take, min_eq_left (by omega)]

end

theorem readBeU64Low8_ofNat {n : ℕ} (h : n ≤ 2 ^ 53 - 1) :
    readBeU64Low8 (ByteWord.ofNat n).val = some n := by
  have hword : (ByteWord.ofNat n).val = List.replicate 24 0 ++ beBytes 8 n := by
    have hhigh : n / 256 ^ 8 = 0 := Nat.div_eq_of_lt (by omega)
    have hzero : beBytes 24 0 = List.replicate 24 0 := by decide
    have hsplit : beBytes 32 n = beBytes 24 (n / 256 ^ 8) ++ beBytes 8 n := beBytes_add 24 8 n
    rw [← hzero, ← hhigh, ← hsplit]
    rfl
  have hlen : (List.replicate 24 0).length = 24 := List.length_replicate
  rw [readBeU64Low8, hword, List.take_left' hlen, List.drop_left' hlen, foldl_beBytes,
    Nat.mod_eq_of_lt (by omega), if_neg (by decide), if_pos h]

/-! ## The calldata of a batch -/

section

variable (to' : ByteWord) (items : List (ByteWord × ByteWord))

/-- `mint_batch(to, n, ids, hashes)`, word by word. -/
def mintBatchWords : List ByteWord :=
  .ofNat mintBatchSelector :: to' :: .ofNat items.length ::
    (items.map Prod.fst ++ items.map Prod.snd)

def mintBatchCalldata : List ℕ := layout (mintBatchWords to' items)

theorem length_mintBatchWords : (mintBatchWords to' items).length = 3 + 2 * items.length := by
  rw [mintBatchWords, List.length_cons, List.length_cons, List.length_cons, List.length_append,
    List.length_map, List.length_map]
  omega

theorem length_mintBatchCalldata : (mintBatchCalldata to' items).length = 96 + 64 * items.length := by
  rw [mintBatchCalldata, length_layout, length_mintBatchWords]
  omega

variable {to' items}

theorem mintBatchWords_id {item : ByteWord × ByteWord} {i : ℕ} (h : items[i]? = some item) :
    (mintBatchWords to' items)[3 + i]? = some item.1 := by
  obtain ⟨hi, -⟩ := List.getElem?_eq_some_iff.mp h
  rw [mintBatchWords, Nat.add_comm, List.getElem?_cons_succ, List.getElem?_cons_succ,
    List.getElem?_cons_succ, List.getElem?_append_left (by rwa [List.length_map]),
    List.getElem?_map, h, Option.map_some]

theorem mintBatchWords_hash {item : ByteWord × ByteWord} {i : ℕ} (h : items[i]? = some item) :
    (mintBatchWords to' items)[3 + items.length + i]? = some item.2 := by
  have hindex : 3 + items.length + i = items.length + i + 3 := by omega
  rw [mintBatchWords, hindex, List.getElem?_cons_succ, List.getElem?_cons_succ,
    List.getElem?_cons_succ, List.getElem?_append_right (by rw [List.length_map]; omega),
    List.length_map, Nat.add_sub_cancel_left, List.getElem?_map, h, Option.map_some]

end

/-! ## Decoding -/

section

variable {sdk : HexSdk} {bytes : List ℕ} {n : ℕ}

theorem decode_of_short (h : bytes.length < 96) :
    decodeReferenceNftCalldata sdk (.bytes bytes) = none := by
  rw [decodeReferenceNftCalldata, normalizeCalldataBytes]
  by_cases h32 : 32 ≤ bytes.length
  · rw [if_pos h32]
    dsimp only
    rw [if_pos h, if_pos h, ite_self]
  · rw [if_neg h32]

/-- **What is made of calldata with the selector and the count of a batch.** -/
theorem decode_of_mintBatch (hselector : bytes.getD 31 0 = mintBatchSelector)
    (hcount : readBeU64Low8 (wordAt bytes 64) = some n) (h1 : 1 ≤ n) (h500 : n ≤ 500)
    (h96 : 96 ≤ bytes.length) : decodeReferenceNftCalldata sdk (.bytes bytes) =
      if bytes.length < 96 + 64 * n ∨ ¬ (bytes.drop (96 + 64 * n)).all (· = 0) then none
      else some (.mintBatch (wordHex sdk bytes 32) n
        ((List.range n).map fun i => wordHex sdk bytes (96 + 32 * i))
        ((List.range n).map fun i => wordHex sdk bytes (96 + 32 * n + 32 * i))) := by
  have hrange : ¬ (n < 1 ∨ mintBatchDecodeMax < n) := not_or.mpr ⟨by omega, not_lt.mpr h500⟩
  rw [decodeReferenceNftCalldata, normalizeCalldataBytes, if_pos (by omega)]
  dsimp only
  rw [if_pos hselector, if_neg (by omega), hcount]
  dsimp only
  rw [if_neg hrange]
  by_cases hlen : bytes.length < 96 + 64 * n
  · rw [if_pos hlen, if_pos (Or.inl hlen)]
  · rw [if_neg hlen]
    by_cases hzero : (bytes.drop (96 + 64 * n)).all (· = 0)
    · rw [if_neg (not_not.mpr hzero), if_neg (not_or.mpr ⟨hlen, not_not.mpr hzero⟩)]
    · rw [if_pos hzero, if_pos (Or.inr hzero)]

theorem getD_layout (w : ByteWord) (ws : List ByteWord) (rest : List ℕ) :
    (layout (w :: ws) ++ rest).getD 31 0 = w.val.getD 31 0 := by
  have hlen := w.property.length
  rw [layout, List.flatMap_cons, List.append_assoc, List.getD_eq_getElem?_getD,
    List.getElem?_append_left (by omega), ← List.getD_eq_getElem?_getD]

end

theorem map_range_length {α β : Type} {l : List α} {f : ℕ → β} {g : α → β}
    (h : ∀ i a, l[i]? = some a → f i = g a) : (List.range l.length).map f = l.map g := by
  refine List.ext_getElem? fun i => ?_
  rw [List.getElem?_map, List.getElem?_map]
  by_cases hi : i < l.length
  · rw [List.getElem?_range hi, List.getElem?_eq_getElem hi, Option.map_some, Option.map_some,
      h i _ (List.getElem?_eq_getElem hi)]
  · rw [List.getElem?_eq_none (by rw [List.length_range]; omega),
      List.getElem?_eq_none (not_lt.mp hi)]
    rfl

theorem wordHex_layout {sdk : HexSdk} (hsdk : sdk.Lawful) {ws : List ByteWord} {w : ByteWord} {i : ℕ}
    (h : ws[i]? = some w) (rest : List ℕ) : wordHex sdk (layout ws ++ rest) (32 * i) = w.hex := by
  rw [wordHex, wordAt_layout h, hsdk.bytesToHex_eq, ByteWord.hex]

section

variable {sdk : HexSdk} (to' : ByteWord) (items : List (ByteWord × ByteWord)) (rest : List ℕ)

theorem mintBatch_selector :
    (mintBatchCalldata to' items ++ rest).getD 31 0 = mintBatchSelector := by
  rw [mintBatchCalldata, mintBatchWords, getD_layout]
  decide

theorem mintBatch_count (h500 : items.length ≤ 500) :
    readBeU64Low8 (wordAt (mintBatchCalldata to' items ++ rest) 64) = some items.length := by
  have hcount : (mintBatchWords to' items)[2]? = some (.ofNat items.length) := rfl
  have hword := wordAt_layout hcount rest
  rw [mintBatchCalldata, show 64 = 32 * 2 from rfl, hword, readBeU64Low8_ofNat (by omega)]

def decodedMintBatch : DecodedReferenceNftCall :=
  .mintBatch to'.hex items.length (items.map fun item => item.1.hex)
    (items.map fun item => item.2.hex)

/-- **What is made of a batch with something after it.** -/
theorem decode_mintBatch (hsdk : sdk.Lawful) (h1 : 1 ≤ items.length) (h500 : items.length ≤ 500) :
    decodeReferenceNftCalldata sdk (.bytes (mintBatchCalldata to' items ++ rest)) =
      if rest.all (· = 0) then some (decodedMintBatch to' items) else none := by
  have hlen := length_mintBatchCalldata to' items
  have htotal : (mintBatchCalldata to' items ++ rest).length = 96 + 64 * items.length + rest.length := by
    rw [List.length_append, hlen]
  have hsecond : (mintBatchWords to' items)[1]? = some to' := rfl
  have hto : wordHex sdk (mintBatchCalldata to' items ++ rest) 32 = to'.hex :=
    wordHex_layout hsdk hsecond rest
  have hids : ((List.range items.length).map fun i =>
      wordHex sdk (mintBatchCalldata to' items ++ rest) (96 + 32 * i)) =
        items.map fun item => item.1.hex := by
    refine map_range_length fun i item hitem => ?_
    have hindex : 96 + 32 * i = 32 * (3 + i) := by omega
    rw [hindex, mintBatchCalldata, wordHex_layout hsdk (mintBatchWords_id hitem)]
  have hhashes : ((List.range items.length).map fun i =>
      wordHex sdk (mintBatchCalldata to' items ++ rest) (96 + 32 * items.length + 32 * i)) =
        items.map fun item => item.2.hex := by
    refine map_range_length fun i item hitem => ?_
    have hindex : 96 + 32 * items.length + 32 * i = 32 * (3 + items.length + i) := by omega
    rw [hindex, mintBatchCalldata, wordHex_layout hsdk (mintBatchWords_hash hitem)]
  have hrest : (mintBatchCalldata to' items ++ rest).drop (96 + 64 * items.length) = rest := by
    rw [← hlen, List.drop_left]
  have hlong : ¬ (mintBatchCalldata to' items ++ rest).length < 96 + 64 * items.length := by omega
  rw [decode_of_mintBatch (mintBatch_selector to' items rest) (mintBatch_count to' items rest h500)
    h1 h500 (by omega), hrest, hto, hids, hhashes]
  by_cases hzero : rest.all (· = 0) = true
  · rw [if_pos hzero, if_neg (not_or.mpr ⟨hlong, not_not.mpr hzero⟩), decodedMintBatch]
  · rw [if_neg hzero, if_pos (Or.inr hzero)]

/-- **A batch that is cut short is not decoded.** -/
theorem decode_mintBatch_take (h1 : 1 ≤ items.length) (h500 : items.length ≤ 500) {j : ℕ}
    (hj : j < 96 + 64 * items.length) :
    decodeReferenceNftCalldata sdk (.bytes ((mintBatchCalldata to' items ++ rest).take j)) = none := by
  have hlen := length_mintBatchCalldata to' items
  have htake : ((mintBatchCalldata to' items ++ rest).take j).length = j := by
    rw [List.length_take, List.length_append, hlen]
    omega
  by_cases h96 : 96 ≤ j
  · have hselector : ((mintBatchCalldata to' items ++ rest).take j).getD 31 0 = mintBatchSelector := by
      rw [← mintBatch_selector to' items rest, List.getD_eq_getElem?_getD,
        List.getElem?_take_of_lt (by omega), ← List.getD_eq_getElem?_getD]
    have hcount : readBeU64Low8 (wordAt ((mintBatchCalldata to' items ++ rest).take j) 64) =
        some items.length := by
      rw [wordAt_take h96, mintBatch_count to' items rest h500]
    rw [decode_of_mintBatch hselector hcount h1 h500 (by omega), if_pos (Or.inl (by omega))]
  · exact decode_of_short (by omega)

end

/-! ## The round trip -/

inductive Carries (bytes : List ℕ) : CalldataInput → Prop
  | bytes : Carries bytes (.bytes bytes)
  | text {s : Text} (h : Encodes bytes (.string s)) : Carries bytes (.text s)

section

variable {sdk : HexSdk} (hsdk : sdk.Lawful) {bytes : List ℕ}
include hsdk

theorem decode_of_carries (hb : ∀ b ∈ bytes, b < 256) {calldata : CalldataInput}
    (h : Carries bytes calldata) :
    decodeReferenceNftCalldata sdk calldata = decodeReferenceNftCalldata sdk (.bytes bytes) := by
  cases h with
  | bytes => rfl
  | @text s h =>
    by_cases hne : s = []
    · subst hne
      have hnil : bytes = [] := by
        rcases h with h | ⟨digits, hdigits, h | h⟩
        · cases h
        · obtain rfl : [] = digits := Value.string.inj h
          have hlen := length_bytesToHex hb
          rw [← hdigits] at hlen
          change 0 = 2 * bytes.length at hlen
          exact List.eq_nil_of_length_eq_zero (by omega)
        · cases h
      rw [hnil]
      rfl
    · exact decodeReferenceNftCalldata_text hsdk hb h hne

/-- **A batch is decoded as it was encoded**, with zeros after it; cut short, or with anything
but zeros after it, it is not decoded. -/
theorem mintBatch_roundTrip (to' : ByteWord) {items : List (ByteWord × ByteWord)}
    (h1 : 1 ≤ items.length) (h500 : items.length ≤ 500) (zeros : ℕ) :
    (∀ calldata, Carries (mintBatchCalldata to' items ++ List.replicate zeros 0) calldata →
      decodeReferenceNftCalldata sdk calldata = some (decodedMintBatch to' items)) ∧
    (∀ j < 96 + 64 * items.length, ∀ calldata,
      Carries ((mintBatchCalldata to' items ++ List.replicate zeros 0).take j) calldata →
        decodeReferenceNftCalldata sdk calldata = none) ∧
    (∀ tail : List ℕ, (∀ b ∈ tail, b < 256) → (∃ b ∈ tail, b ≠ 0) → ∀ calldata,
      Carries (mintBatchCalldata to' items ++ List.replicate zeros 0 ++ tail) calldata →
        decodeReferenceNftCalldata sdk calldata = none) := by
  have hb : ∀ b ∈ mintBatchCalldata to' items ++ List.replicate zeros 0, b < 256 := by
    refine List.forall_mem_append.mpr ⟨fun b h => lt_of_mem_layout h, fun b h => ?_⟩
    rw [List.eq_of_mem_replicate h]
    decide
  refine ⟨fun calldata h => ?_, fun j hj calldata h => ?_, fun tail htail hne calldata h => ?_⟩
  · have hall : (List.replicate zeros 0).all (· = 0) = true :=
      List.all_eq_true.mpr fun b hmem => decide_eq_true (List.eq_of_mem_replicate hmem)
    rw [decode_of_carries hsdk hb h, decode_mintBatch to' items _ hsdk h1 h500, if_pos hall]
  · rw [decode_of_carries hsdk (fun b hmem => hb b (List.mem_of_mem_take hmem)) h,
      decode_mintBatch_take to' items _ h1 h500 hj]
  · have hall : ¬ (List.replicate zeros 0 ++ tail).all (· = 0) = true := by
      intro hzero
      obtain ⟨b, hmem, hb0⟩ := hne
      have := List.all_eq_true.mp hzero b (List.mem_append_right _ hmem)
      exact hb0 (of_decide_eq_true this)
    rw [decode_of_carries hsdk (List.forall_mem_append.mpr ⟨hb, htail⟩) h, List.append_assoc,
      decode_mintBatch to' items _ hsdk h1 h500, if_neg hall]

end

/-- Two tokens minted to one account. -/
theorem mintBatch_roundTrip_two :
    decodeReferenceNftCalldata hexSdk
        (.bytes (mintBatchCalldata (.ofNat 17) [(.ofNat 1, .ofNat 34), (.ofNat 205, .ofNat 0)] ++
          List.replicate 32 0)) =
      some (decodedMintBatch (.ofNat 17) [(.ofNat 1, .ofNat 34), (.ofNat 205, .ofNat 0)]) := by
  have htwo : 1 ≤ [(ByteWord.ofNat 1, ByteWord.ofNat 34), (.ofNat 205, .ofNat 0)].length := by
    decide
  exact (mintBatch_roundTrip lawful_hexSdk (.ofNat 17) htwo (by decide) 32).1 _ .bytes

end BoingObserver.Nft
