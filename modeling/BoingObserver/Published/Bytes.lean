import BoingObserver.Rpc.Hex

/-!
# Storage keys of the interface registry and the blob store

The byte arithmetic of `published-interface.ts`: hex texts as bytes, the keys that
are an address masked with a tag, and `boing://iface-blob/` URIs.
-/

namespace BoingObserver.Published

open Js Rpc

/-! ## Bytes -/

/-- `parseInt(s, 16)` stored in a `Uint8Array`. -/
def byteAt (s : Text) (i : ℕ) : ℕ :=
  match parseInt16 (slice s (2 * i) (2 * i + 2)) with
  | some z => toUint8 z
  | none => 0

def hexToBytes (h : Text) : List ℕ :=
  let s := h64 (.string h)
  (List.range (s.length / 2)).map (byteAt s)

/-- The last `k` bytes of a number, least significant first. -/
def leBytes : ℕ → ℕ → List ℕ
  | 0, _ => []
  | k + 1, n => n % 256 :: leBytes k (n / 256)

@[simp] theorem length_leBytes (k n : ℕ) : (leBytes k n).length = k := by
  induction k generalizing n with
  | zero => rfl
  | succ k ih => rw [leBytes, List.length_cons, ih]

def beBytes (k n : ℕ) : List ℕ := (leBytes k n).reverse

def asciiWord (s : Text) : List ℕ := (s.map Char.toNat ++ List.replicate 32 0).take 32

/-- `a.map((x, i) => x ^ mask[i])` -/
def xorBytes (a mask : List ℕ) : List ℕ := a.mapIdx fun i x => x ^^^ mask.getD i 0

/-! ## Registry keys -/

def claimerXor : List ℕ := asciiWord "BOING_IFACE_CLAIMER_V1"

def fieldXor : List ℕ := asciiWord "BOING_IFACE_FIELD_V1"

def xorKey (address64 : Text) (mask : List ℕ) : Text :=
  bytesToHex (xorBytes (hexToBytes address64) mask)

def claimerKey (address64 : Text) : Text := xorKey address64 claimerXor

def fieldKey (address64 : Text) (field : ℕ) : Text :=
  xorKey address64 (fieldXor.set 31 (toUint8 field))

/-! ## Blobs -/

def ifaceBlobUriPrefix : Text := "boing://iface-blob/"

def blobTag : List ℕ := asciiWord "BOING_IFACE_BLOB_V1"

/-- Storage key of word `index` of blob `id` by `writer`: writer ^ TAG ^ (id << 32) ^ index. -/
def blobKey (writer64 : Text) (id index : ℕ) : Text :=
  bytesToHex (xorBytes (xorBytes (hexToBytes writer64) blobTag)
    (List.replicate 20 0 ++ beBytes 8 id ++ beBytes 4 index))

/-- Writer and id of a blob URI: `0x`, 64 hex digits, a slash and 16 hex digits. -/
def parseBlobUri (uri : Text) : Option (Text × ℕ) :=
  if ¬ ifaceBlobUriPrefix.isPrefixOf uri then none
  else
    let rest := uri.drop ifaceBlobUriPrefix.length
    let writer := slice rest 2 66
    let id := slice rest 67 83
    if rest.length = 83 ∧ rest.take 2 = "0x" ∧ rest[66]? = some '/' ∧
        writer.all isAnyHexDigit ∧ id.all isAnyHexDigit then
      some (toLowerCase writer, numeral 16 (toLowerCase id))
    else none

example : parseBlobUri "boing://iface-blob/" = none := by decide

end BoingObserver.Published
