import BoingObserver.Nft.MintBatch

/-!
# Token ids as words

`referenceNftTokenIdWordFromU64` of `reference-nft-storage.ts` and
`tryReferenceNftTokenIdU64` of `reference-nft-calldata.ts`: a sequential token id as a
JavaScript number and as a word of 32 bytes.

* `readBeU64Low8_eq_some_iff`: a word is read as a number iff it is below 2^53.
* `tokenIdWord_roundTrip`: ids and words, there and back.
-/

namespace BoingObserver.Nft

open Js
open Published (AreBytes IsWord beBytes beBytes_succ)

/-! ## The two functions -/

/-- `for (let i = 23 + k; i >= 24; i--) { out[i] = Number(n & 255); n >>= 8; }` -/
def writeU64 : ℕ → ℤ → List ℕ → List ℕ
  | 0, _, out => out
  | k + 1, n, out => writeU64 k (n / 256) (out.set (24 + k) (n % 256).toNat)

section

variable (sdk : HexSdk)

/-- `BigInt(id)` throws unless `id` is an integer. -/
def referenceNftTokenIdWordFromU64 (id : Number) : Except JsError Text :=
  match id.toInt? with
  | none => .error .rangeError
  | some n => .ok (sdk.bytesToHex (writeU64 8 n (List.replicate 32 0)))

/-- The id of a word whose high 24 bytes are zeros, if it is safe. -/
def tryReferenceNftTokenIdU64 (tokenIdHex32 : Text) : Option ℕ :=
  ((sdk.validateHex32 tokenIdHex32).bind sdk.hexToBytes).bind readBeU64Low8

end

structure HexSdk.Inverse (sdk : HexSdk) : Prop where
  read_write : ∀ w : ByteWord,
    (sdk.validateHex32 (sdk.bytesToHex w.val)).bind sdk.hexToBytes = some w.val

/-! ## Words and numbers -/

def beValue (bytes : List ℕ) : ℕ := bytes.foldl (fun n b => n * 256 + b) 0

def ByteWord.toNat (w : ByteWord) : ℕ := beValue w.val

section

variable {bytes : List ℕ}

theorem beValue_concat (bytes : List ℕ) (b : ℕ) : beValue (bytes ++ [b]) = beValue bytes * 256 + b := by
  rw [beValue, List.foldl_append]
  rfl

theorem beBytes_beValue (h : AreBytes bytes) : beBytes bytes.length (beValue bytes) = bytes := by
  induction bytes using List.reverseRecOn with
  | nil => rfl
  | append_singleton bytes b ih =>
    obtain ⟨hbytes, hb⟩ := List.forall_mem_append.mp h
    have hb : b < 256 := hb b (List.mem_singleton_self b)
    have hdiv : (beValue bytes * 256 + b) / 256 = beValue bytes := by omega
    have hmod : (beValue bytes * 256 + b) % 256 = b := by omega
    rw [List.length_append, List.length_singleton, beBytes_succ, beValue_concat, hdiv, hmod,
      ih hbytes]

theorem foldl_shift_eq (h : AreBytes bytes) :
    bytes.foldl (fun n b => (n <<< 8) ||| b) 0 = beValue bytes := by
  induction bytes using List.reverseRecOn with
  | nil => rfl
  | append_singleton bytes b ih =>
    obtain ⟨hbytes, hb⟩ := List.forall_mem_append.mp h
    have hb : b < 2 ^ 8 := hb b (List.mem_singleton_self b)
    rw [beValue_concat, List.foldl_append, ih hbytes, List.foldl_cons, List.foldl_nil,
      ← Nat.shiftLeft_add_eq_or_of_lt hb, Nat.shiftLeft_eq]

theorem beValue_replicate_append (k : ℕ) (bytes : List ℕ) :
    beValue (List.replicate k 0 ++ bytes) = beValue bytes := by
  induction k with
  | zero => rfl
  | succ k ih => exact ih

end

theorem ByteWord.ofNat_toNat (w : ByteWord) : ByteWord.ofNat w.toNat = w := by
  refine Subtype.ext ?_
  have h := beBytes_beValue w.property.bytes
  rwa [w.property.length] at h

/-- **A word is read as a number** iff it is a safe one. -/
theorem readBeU64Low8_eq_some_iff (w : ByteWord) {n : ℕ} :
    readBeU64Low8 w.val = some n ↔ w.toNat = n ∧ n < 2 ^ 53 := by
  constructor
  · intro h
    rw [readBeU64Low8] at h
    dsimp only at h
    split_ifs at h with hhigh hsafe
    have hzero : w.val.take 24 = List.replicate 24 0 := by
      refine List.eq_replicate_iff.mpr ⟨?_, fun b hb => ?_⟩
      · rw [List.length_take, w.property.length]
        rfl
      · exact of_decide_eq_true (List.all_eq_true.mp hhigh b hb)
    have hvalue : w.toNat = beValue (w.val.drop 24) := by
      rw [ByteWord.toNat, ← List.take_append_drop 24 w.val, hzero, beValue_replicate_append,
        ← hzero, List.take_append_drop]
    have hlow : AreBytes (w.val.drop 24) := fun b hb =>
      w.property.bytes b (List.mem_of_mem_drop hb)
    rw [foldl_shift_eq hlow, ← hvalue] at h hsafe
    obtain rfl := Option.some.inj h
    exact ⟨rfl, by omega⟩
  · rintro ⟨rfl, hsafe⟩
    rw [← readBeU64Low8_ofNat (n := w.toNat) (by omega), w.ofNat_toNat]

/-! ## The written word -/

/-- The loop writes the low bytes of a number in front of those it has written. -/
theorem writeU64_eq (k n : ℕ) {pre a : List ℕ} (hpre : pre.length = 24) (ha : a.length = k)
    (b : List ℕ) : writeU64 k n (pre ++ (a ++ b)) = pre ++ (beBytes k n ++ b) := by
  induction k generalizing n a b with
  | zero =>
    obtain rfl := List.length_eq_zero_iff.mp ha
    rfl
  | succ k ih =>
    obtain ⟨a, x, rfl⟩ := (List.eq_nil_or_concat' a).resolve_left (List.ne_nil_of_length_eq_add_one ha)
    have ha : a.length = k := by simpa using ha
    have hset : (pre ++ (a ++ [x] ++ b)).set (24 + k) (n % 256) = pre ++ (a ++ (n % 256 :: b)) := by
      rw [List.set_append_right _ _ (by omega), hpre, Nat.add_sub_cancel_left, List.append_assoc,
        List.set_append_right _ _ (by omega), ha, Nat.sub_self]
      rfl
    have hmod : ((n : ℤ) % 256).toNat = n % 256 := by omega
    rw [writeU64, hmod, hset, show (n : ℤ) / 256 = (n / 256 : ℕ) from rfl, ih _ ha, beBytes_succ,
      List.append_assoc]
    rfl

/-- **The word of an id below 2^64.** -/
theorem writeU64_zeros {n : ℕ} (h : n < 2 ^ 64) :
    writeU64 8 n (List.replicate 32 0) = (ByteWord.ofNat n).val := by
  have hloop : writeU64 8 n (List.replicate 24 0 ++ (List.replicate 8 0 ++ [])) =
      List.replicate 24 0 ++ (beBytes 8 n ++ []) := writeU64_eq 8 n rfl rfl []
  have hhigh : n / 256 ^ 8 = 0 := Nat.div_eq_of_lt (by omega)
  have hsplit : beBytes 32 n = beBytes 24 (n / 256 ^ 8) ++ beBytes 8 n := Published.beBytes_add 24 8 n
  rw [hhigh] at hsplit
  exact hloop.trans ((congrArg _ (List.append_nil _)).trans hsplit.symm)

theorem referenceNftTokenIdWordFromU64_ofNat (sdk : HexSdk) {n : ℕ} (h : n < 2 ^ 64) :
    referenceNftTokenIdWordFromU64 sdk (.ofNat n) =
      .ok (sdk.bytesToHex (ByteWord.ofNat n).val) := by
  rw [← writeU64_zeros h]
  rfl

/-- **Ids and words, there and back.**  A safe id comes back from its word; a word is no id iff it
is at least 2^53 as an unsigned integer, and otherwise comes back from its id. -/
theorem tokenIdWord_roundTrip {sdk : HexSdk} (hsdk : sdk.Inverse) :
    (∀ n < 2 ^ 53, ∃ w, referenceNftTokenIdWordFromU64 sdk (.ofNat n) = .ok w ∧
      tryReferenceNftTokenIdU64 sdk w = some n) ∧
    ∀ w : ByteWord,
      (tryReferenceNftTokenIdU64 sdk (sdk.bytesToHex w.val) = none ↔ 2 ^ 53 ≤ w.toNat) ∧
      ∀ n, tryReferenceNftTokenIdU64 sdk (sdk.bytesToHex w.val) = some n →
        referenceNftTokenIdWordFromU64 sdk (.ofNat n) = .ok (sdk.bytesToHex w.val) := by
  have hread : ∀ w : ByteWord,
      tryReferenceNftTokenIdU64 sdk (sdk.bytesToHex w.val) = readBeU64Low8 w.val := by
    intro w
    rw [tryReferenceNftTokenIdU64, hsdk.read_write w, Option.bind_some]
  refine ⟨?_, fun w => ?_⟩
  · intro n hn
    refine ⟨_, referenceNftTokenIdWordFromU64_ofNat sdk (by omega), ?_⟩
    rw [hread, readBeU64Low8_ofNat (by omega)]
  · rw [hread]
    constructor
    · rw [Option.eq_none_iff_forall_not_mem]
      simp only [Option.mem_def, readBeU64Low8_eq_some_iff]
      constructor
      · intro h
        by_contra hlt
        exact h w.toNat ⟨rfl, by omega⟩
      · rintro hge n ⟨rfl, hlt⟩
        omega
    · intro n hn
      obtain ⟨rfl, hlt⟩ := (readBeU64Low8_eq_some_iff w).mp hn
      rw [referenceNftTokenIdWordFromU64_ofNat sdk (by omega), w.ofNat_toNat]

theorem inverse_hexSdk : hexSdk.Inverse where
  read_write w := by
    have hhex := isHex_bytesToHex w.val
    have hstrip : strip0x (("0x" : Text) ++ bytesToHex w.val) = bytesToHex w.val := strip0x_cons_x _
    have hall : (bytesToHex w.val).all isAnyHexDigit = true :=
      List.all_eq_true.mpr fun c hc => by rw [isAnyHexDigit, hhex c hc, Bool.true_or]
    have hlen : (bytesToHex w.val).length = 64 := by
      rw [length_bytesToHex w.property.bytes, w.property.length]
    have hword : Rpc.isAnyWord (bytesToHex w.val) = true := by
      rw [Rpc.isAnyWord, decide_eq_true hlen, hall, Bool.and_self]
    simp only [hexSdk, hstrip]
    rw [if_pos hword, Option.bind_some, hstrip, hlen, hall, if_pos ⟨rfl, rfl⟩,
      Published.hexToBytes_bytesToHex w.property.bytes]

/-- The token 7. -/
theorem tokenIdWord_roundTrip_seven :
    ∃ w, referenceNftTokenIdWordFromU64 hexSdk (.ofNat 7) = .ok w ∧
      tryReferenceNftTokenIdU64 hexSdk w = some 7 :=
  (tokenIdWord_roundTrip inverse_hexSdk).1 7 (by decide)

end BoingObserver.Nft
