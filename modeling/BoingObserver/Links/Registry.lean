import BoingObserver.Js.ToNumber
import BoingObserver.Oracle
import BoingObserver.Published.Words

/-!
# The registry of linked collections and tokens

The calldata and the return data of `linked-nft-token-registry.ts`: the count of the
slots, the two ids of a slot, and the claimer of an asset.

* `decodeGetLinkAt_words`: the two words of a slot are its ids, active iff both are not zero.
* `decodeAssetClaimer_word`: a word is the claimer, unless it is zero.
* `encodeGetLinkAt_inj`: slots have different calldata.
-/

namespace BoingObserver.Links

open Js Rpc Oracle
open Published (AreBytes beBytes hexToBytes)

/-! ## Calldata -/

def selectorLinksCount : ℕ := 0xe3

def selectorGetLinkAt : ℕ := 0xe4

def selectorGetAssetClaimer : ℕ := 0xe5

def maxScanDefault : Number := .ofNat 4096

def zero32 : Text := "0x" ++ List.replicate 64 '0'

def selectorWord (selector : ℕ) : List ℕ := List.replicate 31 0 ++ [selector &&& 0xff]

/-- A word of eight bytes behind zeros. -/
def u64Word (n : Number) : Except JsError (List ℕ) :=
  match n.toSafeNat? with
  | some n => .ok (List.replicate 24 0 ++ beBytes 8 n)
  | none => .error .rangeError

/-- `links_count` calldata (32 bytes). -/
def encodeLinksCount : Text := "0x" ++ bytesToHex (selectorWord selectorLinksCount)

/-- `get_link_at(index)` calldata (64 bytes). -/
def encodeGetLinkAt (index : Number) : Except JsError Text := do
  let word ← u64Word index
  return "0x" ++ bytesToHex (selectorWord selectorGetLinkAt ++ word)

/-- `get_asset_claimer(asset)` calldata (64 bytes). -/
def encodeGetAssetClaimer (assetId : Text) : Except JsError Text :=
  let body := toLowerCase (strip0x assetId)
  if body.length = 64 ∧ IsHex body then
    .ok ("0x" ++ bytesToHex (selectorWord selectorGetAssetClaimer ++ hexToBytes body))
  else .error (.error "asset id must be 32-byte hex")

/-! ## Return data -/

def rawOf (returnDataHex : Text) : Text := toLowerCase (strip0x returnDataHex)

/-- Claimer AccountId from `get_asset_claimer` return data (none when unclaimed). -/
def decodeAssetClaimer (returnDataHex : Option Text) : Option Text :=
  let raw := rawOf (returnDataHex.getD [])
  if raw.length < 64 then none
  else
    let w := "0x" ++ sliceEnd raw 64
    if w = zero32 then none else some w

/-- `BigInt("0x" + digits)` of a lower-case text; white space at the end is skipped. -/
def bigIntOfHex (digits : Text) : Except JsError ℕ :=
  let ds := digits.rdropWhile isSpace
  if ds ≠ [] ∧ IsHex ds then .ok (numeral 16 ds)
  else .error (.error ("Cannot convert 0x" ++ digits ++ " to a BigInt"))

def decodeLinksCount (returnDataHex : Text) : Except JsError ℕ :=
  let raw := rawOf returnDataHex
  if raw.length < 16 then .ok 0 else bigIntOfHex (sliceEnd raw 16)

structure LinkAt where
  collectionHex : Text
  tokenHex : Text
  active : Bool
  deriving DecidableEq

def decodeGetLinkAt (returnDataHex : Text) : Except JsError LinkAt :=
  let raw := rawOf returnDataHex
  if raw.length < 128 then .error (.error "get_link_at return data: expected 64 bytes")
  else
    let collectionHex := "0x" ++ slice raw 0 64
    let tokenHex := "0x" ++ slice raw 64 128
    .ok { collectionHex, tokenHex, active := collectionHex ≠ zero32 && tokenHex ≠ zero32 }

/-- A 32-byte account id with `0x` in lower case; none for the zero id. -/
def normalizeAccountId (hex : Text) : Option Text :=
  let n := normalizeHex64 (strip0x (trim hex))
  if n = [] ∨ "0x" ++ n = zero32 then none else some ("0x" ++ n)

/-! ## Calls -/

/-- `client.simulateContractCall(contract, calldata)` -/
structure Simulate where
  contract : Text
  calldata : Text
  deriving DecidableEq

abbrev Simulated : Simulate → Type := fun _ => Except JsError Value

abbrev Reads (α : Type) : Type := Async Simulated JsError α

def returnData (sim : Value) : Option Text :=
  if (sim.get "success").truthy then
    match sim.get "return_data" with
    | .string rd => if rd ≠ [] then some rd else none
    | _ => none
  else none

def simulateReturnData (registryId calldata : Text) : Reads (Option Text) := do
  let sim ← ExceptT.mk (Prog.query (Simulate.mk registryId calldata))
  return returnData sim

/-! ## What the decoders read -/

theorem rawOf_prefixed {s : Text} (h : IsHex s) : rawOf ("0x" ++ s) = s := by
  change toLowerCase (strip0x ('0' :: 'x' :: s)) = s
  rw [strip0x_cons_x, h.toLowerCase_eq]

/-- **The two words of a slot are its ids**; the slot is active iff neither is zero. -/
theorem decodeGetLinkAt_words {collection token : Text} (hc : IsHex collection)
    (ht : IsHex token) (hclen : collection.length = 64) (htlen : token.length = 64) :
    decodeGetLinkAt ("0x" ++ (collection ++ token)) =
      .ok ⟨"0x" ++ collection, "0x" ++ token,
        "0x" ++ collection ≠ zero32 && "0x" ++ token ≠ zero32⟩ := by
  have hlen : ¬ (collection ++ token).length < 128 := by
    rw [List.length_append]
    omega
  have hfirst : slice (collection ++ token) 0 64 = collection := slice_append_left hclen token
  have hsecond : slice (collection ++ token) 64 128 = token := by
    rw [slice, List.drop_left' hclen, List.take_of_length_le (by omega)]
  rw [decodeGetLinkAt, rawOf_prefixed (hc.append ht), if_neg hlen, hfirst, hsecond]

/-- **A word is the claimer**, unless it is zero. -/
theorem decodeAssetClaimer_word {word : Text} (hw : IsHex word) (hlen : word.length = 64) :
    decodeAssetClaimer (some ("0x" ++ word)) =
      if "0x" ++ word = zero32 then none else some ("0x" ++ word) := by
  have hend : sliceEnd word 64 = word := by
    rw [sliceEnd, hlen]
    rfl
  rw [decodeAssetClaimer, Option.getD_some, rawOf_prefixed hw, if_neg (by omega), hend]

theorem decodeLinksCount_lt {rd : Text} {n : ℕ} (h : decodeLinksCount rd = .ok n) : n < 2 ^ 64 := by
  rw [decodeLinksCount] at h
  split at h
  · obtain rfl := Except.ok.inj h
    omega
  · rw [bigIntOfHex] at h
    split at h
    next hds =>
      obtain rfl := Except.ok.inj h
      have hshort := (List.rdropWhile_prefix isSpace (sliceEnd (rawOf rd) 16)).length_le
      have hlen : (sliceEnd (rawOf rd) 16).length ≤ 16 := by
        rw [sliceEnd, List.length_drop]
        omega
      calc numeral 16 _ < 16 ^ _ := numeral_lt hds.2
        _ ≤ 16 ^ 16 := Nat.pow_le_pow_right (by omega) (hshort.trans hlen)
        _ = 2 ^ 64 := by norm_num
    next => cases h

theorem toLowerCase_slice (s : Text) (a b : ℕ) :
    toLowerCase ("0x" ++ slice (toLowerCase s) a b) = "0x" ++ slice (toLowerCase s) a b := by
  have hslice : slice (toLowerCase s) a b = toLowerCase (slice s a b) := by
    rw [slice, slice, toLowerCase, toLowerCase, List.map_take, List.map_drop]
  rw [hslice, toLowerCase_append, toLowerCase_toLowerCase]
  rfl

/-- The ids of a slot are in lower case, and not zero iff it is active. -/
theorem decodeGetLinkAt_eq_ok {rd : Text} {link : LinkAt} (h : decodeGetLinkAt rd = .ok link) :
    toLowerCase link.collectionHex = link.collectionHex ∧
      toLowerCase link.tokenHex = link.tokenHex ∧
        (link.active = true ↔ link.collectionHex ≠ zero32 ∧ link.tokenHex ≠ zero32) := by
  rw [decodeGetLinkAt] at h
  split at h
  · cases h
  · obtain rfl := Except.ok.inj h
    refine ⟨toLowerCase_slice _ 0 64, toLowerCase_slice _ 64 128, ?_⟩
    rw [Bool.and_eq_true, decide_eq_true_iff, decide_eq_true_iff]

theorem encodeGetLinkAt_ofNat (i : ℕ) :
    encodeGetLinkAt (.ofNat i) =
      if i < 2 ^ 53 then
        .ok ("0x" ++ bytesToHex (selectorWord selectorGetLinkAt ++
          (List.replicate 24 0 ++ beBytes 8 i)))
      else .error .rangeError := by
  rw [encodeGetLinkAt, u64Word, Number.toSafeNat?_ofNat]
  by_cases hi : i < 2 ^ 53
  · rw [if_pos hi, if_pos hi]
    rfl
  · rw [if_neg hi, if_neg hi]
    rfl

/-- **Slots have different calldata.** -/
theorem encodeGetLinkAt_inj {i j : ℕ} {calldata : Text}
    (hi : encodeGetLinkAt (.ofNat i) = .ok calldata)
    (hj : encodeGetLinkAt (.ofNat j) = .ok calldata) : i = j := by
  rw [encodeGetLinkAt_ofNat] at hi hj
  split at hi
  next hilt =>
    split at hj
    next hjlt =>
      have htexts := List.append_cancel_left
        ((Except.ok.inj hi).trans (Except.ok.inj hj).symm)
      have hword (n : ℕ) : AreBytes (selectorWord selectorGetLinkAt ++
          (List.replicate 24 0 ++ beBytes 8 n)) := by
        intro b hb
        rcases List.mem_append.mp hb with hb | hb
        · exact (by decide : ∀ b ∈ selectorWord selectorGetLinkAt, b < 256) b hb
        rcases List.mem_append.mp hb with hb | hb
        · rw [(List.mem_replicate.mp hb).2]
          omega
        · exact Published.areBytes_beBytes 8 n b hb
      have hbytes := List.append_cancel_left
        (List.append_cancel_left (Published.bytesToHex_inj (hword i) (hword j) htexts))
      exact Published.beBytes_inj (by omega) (by omega) hbytes
    next => cases hj
  next => cases hi

end BoingObserver.Links
