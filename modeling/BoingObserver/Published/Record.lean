import BoingObserver.Published.Blob

/-!
# Registry records

What `readRegistryRecord` makes of a record that is stored word by word.

* `registryKeys_nodup`: the claimer and the fields of an address have keys of their own.
* `returns_registryWord`: a word that is stored is read.
* `readRegistryRecord_exact`: a stored record is read back.
-/

namespace BoingObserver.Published

open Js Rpc Oracle

/-! ## Keys -/

def fieldMask (field : ℕ) : List ℕ := fieldXor.set 31 (toUint8 field)

def registryMasks : List (List ℕ) := claimerXor :: (List.range 9).map fieldMask

/-- The tags differ in their thirteenth byte, the fields in their last one. -/
theorem registryMasks_nodup : registryMasks.Nodup := by decide

theorem registryMasks_bytes : ∀ mask ∈ registryMasks, AreBytes mask ∧ mask.length = 32 := by
  unfold AreBytes
  decide

theorem xorKey_inj {address64 : Text} (h : (hexToBytes address64).length = 32)
    {mask mask' : List ℕ} (hm : AreBytes mask) (hm' : AreBytes mask') (hlen : mask.length = 32)
    (hlen' : mask'.length = 32) (heq : xorKey address64 mask = xorKey address64 mask') : mask = mask' := by
  have hbytes := areBytes_hexToBytes address64
  exact xorBytes_right_inj (hlen.trans h.symm) (hlen'.trans h.symm)
    (bytesToHex_inj (areBytes_xorBytes hbytes hm) (areBytes_xorBytes hbytes hm') heq)

/-- **The claimer and the fields of an address have keys of their own.** -/
theorem registryKeys_nodup {address64 : Text} (h : (hexToBytes address64).length = 32) :
    (claimerKey address64 :: (List.range 9).map (fieldKey address64)).Nodup := by
  have hkeys : claimerKey address64 :: (List.range 9).map (fieldKey address64) =
      registryMasks.map (xorKey address64) := by
    rw [registryMasks, List.map_cons, List.map_map]
    rfl
  rw [hkeys]
  refine registryMasks_nodup.map_on fun mask hmask mask' hmask' heq => ?_
  obtain ⟨hbytes, hlen⟩ := registryMasks_bytes mask hmask
  obtain ⟨hbytes', hlen'⟩ := registryMasks_bytes mask' hmask'
  exact xorKey_inj h hbytes hbytes' hlen hlen' heq

/-! ## URIs -/

def utf8Bytes (s : Text) : List ℕ := (s.flatMap String.utf8EncodeChar).map UInt8.toNat

theorem areBytes_utf8Bytes (s : Text) : AreBytes (utf8Bytes s) := by
  intro b hb
  obtain ⟨byte, -, rfl⟩ := List.mem_map.mp hb
  exact byte.toNat_lt

def byteOrderMark : Char := Char.ofNat 0xFEFF

/-- The platform decodes UTF-8: the bytes of a text give the text, unless it starts with a
byte-order mark. -/
def DecodesUtf8 (engine : Engine) : Prop :=
  ∀ s : Text, s.head? ≠ some byteOrderMark → engine.decode (utf8Bytes s) = s

/-! ## Words -/

theorem isWord_storedWord {b : List ℕ} (h : AreBytes b) (i : ℕ) : IsWord (storedWord b i) :=
  ⟨areBytes_storedWord h i, length_storedWord b i⟩

theorem drop_lengthWord (n : ℕ) :
    (bytesToHex (beBytes 32 n)).drop 48 = bytesToHex (beBytes 8 n) := by
  have hfront : (bytesToHex (beBytes 24 (n / 256 ^ 8))).length = 48 := by
    rw [length_bytesToHex (areBytes_beBytes 24 _), length_beBytes]
  rw [show 32 = 24 + 8 from rfl, beBytes_add, bytesToHex_append, ← hfront, List.drop_left]

theorem parseInt16_lengthWord {n : ℕ} (h : n < 2 ^ 64) :
    parseInt16 ((bytesToHex (beBytes 32 n)).drop 48) = some (n : ℤ) := by
  have hne : bytesToHex (beBytes 8 n) ≠ [] := by
    intro e
    have hlen := length_bytesToHex (areBytes_beBytes 8 n)
    rw [e, length_beBytes] at hlen
    cases hlen
  have hnum : numeral 16 (bytesToHex (beBytes 8 n)) = n := by
    rw [numeral_beBytes]
    exact Nat.mod_eq_of_lt h
  rw [drop_lengthWord, parseInt16_of_isHex (isHex_bytesToHex _) hne, hnum]

theorem h64_orElse (v : Value) : h64 (v.orElse (.string [])) = h64 v := by
  rw [Value.orElse]
  cases v <;> rfl

section

variable {engine : Engine} {env : Env Answer} {registry64 address64 : Text}

/-- **A word that is stored is read.** -/
theorem returns_registryWord {key : Text} {word : List ℕ} (h : Stores env registry64 key word)
    (hw : IsWord word) : Async.Returns env (registryWord registry64 key) (bytesToHex word) := by
  intro tr
  obtain ⟨v, hv, hold⟩ := h tr
  have hread : Async.exec env (getContractStorage ("0x" ++ registry64) ("0x" ++ key)) tr =
      (.ok v, (Async.exec env (getContractStorage ("0x" ++ registry64) ("0x" ++ key)) tr).2) :=
    Prod.ext hv rfl
  have htext := hold.text_eq hw.bytes hw.length
  rw [h64_orElse] at htext
  rw [registryWord, Async.exec_bind, hread]
  exact congrArg Except.ok htext

theorem returns_uriWords {bytes : List ℕ} (hb : AreBytes bytes)
    (h : ∀ i, 32 * i < bytes.length →
      Stores env registry64 (fieldKey address64 (2 + i)) (storedWord bytes i)) :
    Async.Returns env (Async.all ((List.range ((bytes.length + 31) / 32)).map fun i =>
        registryWord registry64 (fieldKey address64 (2 + i))))
      ((List.range ((bytes.length + 31) / 32)).map fun i => bytesToHex (storedWord bytes i)) := by
  refine Async.returns_all fun i hi => returns_registryWord (h i ?_) (isWord_storedWord hb i)
  have hi := List.mem_range.mp hi
  omega

theorem take_uriWords {bytes : List ℕ} (hb : AreBytes bytes) :
    (hexToBytes ((List.range ((bytes.length + 31) / 32)).map fun i =>
      bytesToHex (storedWord bytes i)).flatten).take bytes.length = bytes := by
  have hwords : ((List.range ((bytes.length + 31) / 32)).map fun i =>
      bytesToHex (storedWord bytes i)).flatten =
        bytesToHex ((List.range ((bytes.length + 31) / 32)).map (storedWord bytes)).flatten := by
    rw [← bytesToHex_flatten, List.map_map]
    rfl
  rw [hwords, hexToBytes_bytesToHex (areBytes_storedWords hb _), flatten_storedWords (by omega)]

/-! ## Records -/

structure StoredRecord where
  hash : List ℕ
  uri : Text
  publisher : List ℕ
  claimer : List ℕ

structure StoredRecord.WellFormed (r : StoredRecord) : Prop where
  hash : IsWord r.hash
  hash_ne : r.hash ≠ List.replicate 32 0
  uri_length : (utf8Bytes r.uri).length ≤ 192
  uri_head : r.uri.head? ≠ some byteOrderMark
  publisher : IsWord r.publisher
  claimer : IsWord r.claimer

/-- A node that stores the record of an address: the hash, the length of the URI and its words, the
publisher and the claimer. -/
structure StoredAt (env : Env Answer) (registry64 address64 : Text) (r : StoredRecord) : Prop where
  hash : Stores env registry64 (fieldKey address64 0) r.hash
  length : Stores env registry64 (fieldKey address64 1) (beBytes 32 (utf8Bytes r.uri).length)
  uri : ∀ i, 32 * i < (utf8Bytes r.uri).length →
    Stores env registry64 (fieldKey address64 (2 + i)) (storedWord (utf8Bytes r.uri) i)
  publisher : Stores env registry64 (fieldKey address64 8) r.publisher
  claimer : Stores env registry64 (claimerKey address64) r.claimer

def StoredRecord.read (r : StoredRecord) : RegistryRecord where
  claimer := bytesToHex r.claimer
  publisher := bytesToHex r.publisher
  interfaceHash := bytesToHex r.hash
  uri := r.uri

theorem bytesToHex_ne_zeros {word : List ℕ} (hw : AreBytes word)
    (hne : word ≠ List.replicate 32 0) : bytesToHex word ≠ List.replicate 64 '0' := by
  intro heq
  have hzero : bytesToHex (List.replicate 32 0) = List.replicate 64 '0' := by decide
  have hbytes : AreBytes (List.replicate 32 0) := by
    unfold AreBytes
    decide
  exact hne (bytesToHex_inj hw hbytes (heq.trans hzero.symm))

theorem returns_readRegistryRecord (hdecode : DecodesUtf8 engine) {r : StoredRecord}
    (hr : r.WellFormed) (h : StoredAt env registry64 address64 r) :
    Async.Returns env (readRegistryRecord engine registry64 address64) (some r.read) := by
  have hlen :
      (min ((parseInt16 ((bytesToHex (beBytes 32 (utf8Bytes r.uri).length)).drop 48)).getD 0)
        interfaceRegistryMaxUriBytes).toNat = (utf8Bytes r.uri).length := by
    have hmax := hr.uri_length
    rw [parseInt16_lengthWord (by omega), Option.getD_some, interfaceRegistryMaxUriBytes]
    omega
  have huri := take_uriWords (areBytes_utf8Bytes r.uri)
  rw [readRegistryRecord]
  refine (returns_registryWord h.hash hr.hash).bind ?_
  rw [if_neg (bytesToHex_ne_zeros hr.hash.bytes hr.hash_ne)]
  refine (returns_registryWord h.claimer hr.claimer).attempt.bind ?_
  refine (returns_registryWord h.publisher hr.publisher).attempt.bind ?_
  refine (returns_registryWord h.length (isWord_beBytes _)).attempt.bind ?_
  refine Async.Returns.bind (a := bytesToHex r.claimer) (fun _ => rfl) ?_
  refine Async.Returns.bind (a := bytesToHex r.publisher) (fun _ => rfl) ?_
  refine Async.Returns.bind (a := bytesToHex (beBytes 32 (utf8Bytes r.uri).length))
    (fun _ => rfl) ?_
  rw [hlen]
  refine (returns_uriWords (areBytes_utf8Bytes r.uri) h.uri).bind ?_
  rw [huri, hdecode r.uri hr.uri_head]
  exact Async.returns_pure _

/-- **A stored record is read back**, and its words have keys of their own. -/
theorem readRegistryRecord_exact (hdecode : DecodesUtf8 engine) (registry64 : Text)
    {address64 : Text} (haddress : (hexToBytes address64).length = 32) :
    (∀ (env : Env Answer) (r : StoredRecord), r.WellFormed → StoredAt env registry64 address64 r →
        ∀ tr, (Async.exec env (readRegistryRecord engine registry64 address64) tr).1 =
          .ok (some r.read)) ∧
      (claimerKey address64 :: (List.range 9).map (fieldKey address64)).Nodup :=
  ⟨fun _ _ hr h => returns_readRegistryRecord hdecode hr h, registryKeys_nodup haddress⟩

end

namespace TwoWords

/-- `new TextDecoder().decode(bytes)` for valid UTF-8. -/
def decode (bytes : List ℕ) : Text :=
  match (bytes.map UInt8.ofNat).toByteArray.utf8Decode? with
  | some chars => if chars.toList.head? = some byteOrderMark then chars.toList.tail else chars.toList
  | none => []

theorem decode_utf8Bytes {s : Text} (h : s.head? ≠ some byteOrderMark) :
    decode (utf8Bytes s) = s := by
  have hbytes : (utf8Bytes s).map UInt8.ofNat = s.flatMap String.utf8EncodeChar := by
    rw [utf8Bytes, List.map_map]
    exact (List.map_congr_left fun b _ => UInt8.ofNat_toNat).trans (List.map_id _)
  have hchars : ((utf8Bytes s).map UInt8.ofNat).toByteArray.utf8Decode? = some s.toArray := by
    rw [hbytes]
    exact List.utf8Decode?_utf8Encode
  rw [decode, hchars]
  exact if_neg h

def engine : Engine where
  numberText := integersOnly
  blake3 _ := []
  decode := decode
  parse _ := .error .typeError
  inflateRaw := .ok
  engineMessage _ := []

theorem decodesUtf8_engine : DecodesUtf8 engine := fun _ h => decode_utf8Bytes h

def address : Text := List.replicate 64 'a'

def record : StoredRecord where
  hash := List.replicate 32 1
  uri := "https://boing.network/interfaces/1.json"
  publisher := List.replicate 32 2
  claimer := List.replicate 32 3

def storage : List (Text × Text) :=
  [("0x" ++ fieldKey address 0, "0x" ++ bytesToHex record.hash),
    ("0x" ++ fieldKey address 1, "0x" ++ bytesToHex (beBytes 32 39)),
    ("0x" ++ fieldKey address 2, "0x" ++ bytesToHex (storedWord (utf8Bytes record.uri) 0)),
    ("0x" ++ fieldKey address 3, "0x" ++ bytesToHex (storedWord (utf8Bytes record.uri) 1)),
    ("0x" ++ fieldKey address 8, "0x" ++ bytesToHex record.publisher),
    ("0x" ++ claimerKey address, "0x" ++ bytesToHex record.claimer)]

def node : Env Answer := fun _ q =>
  match q with
  | .getContractStorage _ key =>
    show Except JsError Value from .ok (match storage.lookup key with
      | some word => .object [("value", .string word)]
      | none => .null)
  | .getAccount _ => show Except JsError Value from .error .typeError
  | .fetch _ => show Except JsError Response from .error .typeError

theorem stores_of_lookup {registry64 key : Text} {word : List ℕ}
    (h : storage.lookup ("0x" ++ key) = some ("0x" ++ bytesToHex word)) :
    Stores node registry64 key word := by
  intro tr
  refine ⟨.object [("value", .string ("0x" ++ bytesToHex word))], ?_, .inr (.inl rfl)⟩
  change (show Except JsError Value from .ok (match storage.lookup ("0x" ++ key) with
    | some word => .object [("value", .string word)]
    | none => .null)) = _
  rw [h]

theorem isWord_replicate {b : ℕ} (h : b < 256) : IsWord (List.replicate 32 b) := by
  refine ⟨fun x hx => ?_, List.length_replicate⟩
  rw [(List.mem_replicate.mp hx).2]
  exact h

theorem wellFormed_record : record.WellFormed where
  hash := isWord_replicate (by decide)
  hash_ne := by decide
  uri_length := by decide +kernel
  uri_head := by decide
  publisher := isWord_replicate (by decide)
  claimer := isWord_replicate (by decide)

theorem storedAt_record (registry64 : Text) : StoredAt node registry64 address record where
  hash := stores_of_lookup (by decide +kernel)
  length := stores_of_lookup (by decide +kernel)
  uri := by
    intro i hi
    have hlen : (utf8Bytes record.uri).length = 39 := by decide +kernel
    rw [hlen] at hi
    obtain rfl | rfl : i = 0 ∨ i = 1 := by omega
    · exact stores_of_lookup (by decide +kernel)
    · exact stores_of_lookup (by decide +kernel)
  publisher := stores_of_lookup (by decide +kernel)
  claimer := stores_of_lookup (by decide +kernel)

end TwoWords

open TwoWords in
/-- A record whose URI ends inside its second word. -/
theorem readRegistryRecord_exact_two :
    (Async.exec node (readRegistryRecord engine (List.replicate 64 'b') address) []).1 =
      .ok (some record.read) :=
  (readRegistryRecord_exact decodesUtf8_engine (List.replicate 64 'b') (by decide +kernel)).1 node
    record wellFormed_record (storedAt_record _) []

end BoingObserver.Published
