import BoingObserver.Published.Registry
import BoingObserver.Published.Words
import Mathlib.Data.Nat.Bitwise

/-!
# Interface blobs

What `readInterfaceBlob` makes of a blob that is stored word by word.

* `blobKey_inj`: the words of a writer's blobs have keys of their own.
* `flatten_storedWords`: the words of a blob are its bytes, with zeros after them.
* `interfaceBlob_law`: a stored blob is read back.
-/

namespace BoingObserver.Published

open Js Rpc Oracle

/-! ## Keys -/

theorem areBytes_hexToBytes (h : Text) : AreBytes (hexToBytes h) := by
  intro b hb
  obtain ⟨i, -, rfl⟩ := List.mem_map.mp hb
  rw [byteAt]
  split
  next z => rw [toUint8]; omega
  next => omega

theorem length_xorBytes (a mask : List ℕ) : (xorBytes a mask).length = a.length := List.length_mapIdx

theorem areBytes_xorBytes {a mask : List ℕ} (ha : AreBytes a) (hm : AreBytes mask) :
    AreBytes (xorBytes a mask) := by
  intro b hb
  obtain ⟨i, hi, rfl⟩ := List.mem_mapIdx.mp hb
  have hmask : mask.getD i 0 < 2 ^ 8 := by
    rw [List.getD_eq_getElem?_getD]
    cases h : mask[i]? with
    | none => decide
    | some x => exact hm x (List.mem_of_getElem? h)
  exact Nat.xor_lt_two_pow (n := 8) (ha _ (List.getElem_mem hi)) hmask

theorem xorBytes_right_inj {a mask mask' : List ℕ} (hm : mask.length = a.length)
    (hm' : mask'.length = a.length) (h : xorBytes a mask = xorBytes a mask') : mask = mask' := by
  refine List.ext_getElem (hm.trans hm'.symm) ?_
  intro i hi hi'
  have hget := congrArg (·.getD i 0) h
  have ha : i < a.length := hm ▸ hi
  have hxor : ∀ {m : List ℕ} (hmi : i < m.length),
      (xorBytes a m).getD i 0 = a.get ⟨i, ha⟩ ^^^ m.get ⟨i, hmi⟩ := by
    intro m hmi
    simp [xorBytes, List.getD_eq_getElem?_getD, ha, hmi]
  rw [hxor hi, hxor hi'] at hget
  exact Nat.xor_right_injective hget

def blobMask (id index : ℕ) : List ℕ := List.replicate 20 0 ++ beBytes 8 id ++ beBytes 4 index

theorem length_blobMask (id index : ℕ) : (blobMask id index).length = 32 := by
  rw [blobMask, List.length_append, List.length_append, List.length_replicate, length_beBytes,
    length_beBytes]

theorem areBytes_blobMask (id index : ℕ) : AreBytes (blobMask id index) := by
  refine List.forall_mem_append.mpr ⟨List.forall_mem_append.mpr ⟨?_, areBytes_beBytes 8 id⟩,
    areBytes_beBytes 4 index⟩
  intro b hb
  rw [(List.mem_replicate.mp hb).2]
  omega

theorem blobMask_inj {id id' index index' : ℕ} (hid : id < 2 ^ 64) (hid' : id' < 2 ^ 64)
    (hi : index < 2 ^ 32) (hi' : index' < 2 ^ 32) (h : blobMask id index = blobMask id' index') :
    id = id' ∧ index = index' := by
  have hlen : ∀ id, (List.replicate 20 0 ++ beBytes 8 id).length = 28 := by
    intro id
    rw [List.length_append, List.length_replicate, length_beBytes]
  obtain ⟨hfront, hindex⟩ := List.append_inj h ((hlen id).trans (hlen id').symm)
  exact ⟨beBytes_inj hid hid' (List.append_cancel_left hfront), beBytes_inj hi hi' hindex⟩

/-- **The words of a writer's blobs have keys of their own.** -/
theorem blobKey_inj {writer64 : Text} (hw : (hexToBytes writer64).length = 32) {id id' index index' : ℕ}
    (hid : id < 2 ^ 64) (hid' : id' < 2 ^ 64) (hi : index < 2 ^ 32) (hi' : index' < 2 ^ 32)
    (h : blobKey writer64 id index = blobKey writer64 id' index') : id = id' ∧ index = index' := by
  have htag : AreBytes (xorBytes (hexToBytes writer64) blobTag) :=
    areBytes_xorBytes (areBytes_hexToBytes writer64) (by unfold AreBytes; decide)
  have hlen : (xorBytes (hexToBytes writer64) blobTag).length = 32 :=
    (length_xorBytes _ _).trans hw
  have hxor := bytesToHex_inj (areBytes_xorBytes htag (areBytes_blobMask id index))
    (areBytes_xorBytes htag (areBytes_blobMask id' index')) h
  exact blobMask_inj hid hid' hi hi' (xorBytes_right_inj
    ((length_blobMask id index).trans hlen.symm) ((length_blobMask id' index').trans hlen.symm) hxor)

/-! ## Words -/

/-- Word `i` of the bytes of a blob, the last one padded with zeros. -/
def storedWord (b : List ℕ) (i : ℕ) : List ℕ :=
  let w := (b.drop (32 * i)).take 32
  w ++ List.replicate (32 - w.length) 0

theorem storedWord_succ (b : List ℕ) (i : ℕ) : storedWord b (i + 1) = storedWord (b.drop 32) i := by
  rw [storedWord, storedWord, List.drop_drop, Nat.mul_succ, Nat.add_comm]

theorem length_storedWord (b : List ℕ) (i : ℕ) : (storedWord b i).length = 32 := by
  rw [storedWord, List.length_append, List.length_replicate, List.length_take]
  omega

theorem areBytes_storedWord {b : List ℕ} (h : AreBytes b) (i : ℕ) : AreBytes (storedWord b i) := by
  refine List.forall_mem_append.mpr ⟨?_, ?_⟩
  · intro x hx
    exact h x (List.mem_of_mem_drop (List.mem_of_mem_take hx))
  · intro x hx
    rw [(List.mem_replicate.mp hx).2]
    omega

/-- **The words of a blob are its bytes**, with zeros after them. -/
theorem flatten_storedWords {n : ℕ} {b : List ℕ} (h : b.length ≤ 32 * n) :
    (((List.range n).map (storedWord b)).flatten).take b.length = b := by
  induction n generalizing b with
  | zero =>
    obtain rfl := List.eq_nil_of_length_eq_zero (Nat.le_zero.mp h)
    rfl
  | succ n ih =>
    have htail : (List.range n).map (storedWord b ∘ Nat.succ) =
        (List.range n).map (storedWord (b.drop 32)) :=
      List.map_congr_left fun i _ => storedWord_succ b i
    rw [List.range_succ_eq_map, List.map_cons, List.map_map, htail, List.flatten_cons]
    by_cases hlast : b.length ≤ 32
    · rw [storedWord, Nat.mul_zero, List.drop_zero, List.take_of_length_le hlast, List.append_assoc]
      exact List.take_left
    · have hfull : storedWord b 0 = b.take 32 := by
        have hlen : (b.take 32).length = 32 := List.length_take_of_le (by omega)
        rw [storedWord, Nat.mul_zero, List.drop_zero, hlen, Nat.sub_self, List.replicate_zero,
          List.append_nil]
      have hrest : (b.drop 32).length ≤ 32 * n := by
        rw [List.length_drop]
        omega
      have hsplit : b.length = (b.take 32).length + (b.drop 32).length := by
        rw [← List.length_append, List.take_append_drop]
      rw [hfull, hsplit, List.take_length_add_append, ih hrest, List.take_append_drop]

theorem flatten_wordBatches (n : ℕ) : (wordBatches n).flatten = (List.range n).map (· + 1) := by
  have hbatches : ∀ m, ((List.range m).map fun b =>
      (List.range (min 16 (n - 16 * b))).map fun j => 16 * b + j + 1).flatten =
        (List.range (min n (16 * m))).map (· + 1) := by
    intro m
    induction m with
    | zero => rw [Nat.mul_zero, Nat.min_zero]; rfl
    | succ m ih =>
      have hsplit : min n (16 * (m + 1)) = min n (16 * m) + min 16 (n - 16 * m) := by omega
      rw [List.range_succ, List.map_append, List.flatten_append, ih, hsplit, List.range_add,
        List.map_append, List.map_singleton, List.flatten_singleton, List.map_map]
      refine congrArg _ (List.map_congr_left fun j hj => ?_)
      have hj := List.mem_range.mp hj
      change 16 * m + j + 1 = min n (16 * m) + j + 1
      omega
  rw [wordBatches, hbatches]
  congr 2
  omega

/-! ## URIs -/

def blobUri (writer : List ℕ) (id : ℕ) : Text :=
  ifaceBlobUriPrefix ++ "0x" ++ bytesToHex writer ++ "/" ++ padHex 16 id

theorem all_isAnyHexDigit_of_isHex {s : Text} (h : IsHex s) : s.all isAnyHexDigit = true := by
  rw [List.all_eq_true]
  intro c hc
  rw [isAnyHexDigit, h c hc, Bool.true_or]

theorem parseBlobUri_blobUri {writer : List ℕ} (hw : AreBytes writer) (hlen : writer.length = 32)
    {id : ℕ} (hid : id < 2 ^ 64) :
    parseBlobUri (blobUri writer id) = some (bytesToHex writer, id) := by
  have hhex := isHex_bytesToHex writer
  have hW : (bytesToHex writer).length = 64 := by rw [length_bytesToHex hw, hlen]
  have hI : (padHex 16 id).length = 16 := length_padHex (by omega) hid
  have huri : blobUri writer id =
      ifaceBlobUriPrefix ++ ('0' :: 'x' :: (bytesToHex writer ++ '/' :: padHex 16 id)) := by
    simp [blobUri]
  have hwriter : slice ('0' :: 'x' :: (bytesToHex writer ++ '/' :: padHex 16 id)) 2 66 =
      bytesToHex writer := by
    change (bytesToHex writer ++ '/' :: padHex 16 id).take 64 = _
    rw [← hW]
    exact List.take_left
  have htail : ('0' :: 'x' :: (bytesToHex writer ++ '/' :: padHex 16 id)).drop 66 =
      '/' :: padHex 16 id := by
    change (bytesToHex writer ++ '/' :: padHex 16 id).drop 64 = _
    rw [← hW]
    exact List.drop_left
  have hslash : ('0' :: 'x' :: (bytesToHex writer ++ '/' :: padHex 16 id))[66]? = some '/' := by
    rw [← List.head?_drop, htail]
    rfl
  have hidx : slice ('0' :: 'x' :: (bytesToHex writer ++ '/' :: padHex 16 id)) 67 83 =
      padHex 16 id := by
    rw [slice, ← List.drop_drop (i := 1) (j := 66), htail]
    exact List.take_of_length_le hI.le
  have hsize : ('0' :: 'x' :: (bytesToHex writer ++ '/' :: padHex 16 id)).length = 83 := by
    simp only [List.length_cons, List.length_append]
    omega
  have hpre : ifaceBlobUriPrefix.isPrefixOf (blobUri writer id) = true := by
    rw [huri, List.isPrefixOf_iff_prefix]
    exact List.prefix_append _ _
  rw [parseBlobUri, if_neg (not_not_intro hpre), huri, List.drop_left]
  dsimp only
  rw [hwriter, hidx, if_pos ⟨hsize, rfl, hslash, all_isAnyHexDigit_of_isHex hhex,
    all_isAnyHexDigit_of_isHex (isHex_padHex 16 id)⟩, hhex.toLowerCase_eq,
    (isHex_padHex 16 id).toLowerCase_eq, numeral_padHex]

/-! ## The store -/

/-- An answer that gives a word: its hex text, or nothing at all for the zero word. -/
def Holds (v : Value) (word : List ℕ) : Prop :=
  v.get "value" = .string (bytesToHex word) ∨ v.get "value" = .string ("0x" ++ bytesToHex word) ∨
    (v.get "value").isNullish = true ∧ word = List.replicate 32 0

def Stores (env : Env Answer) (store64 key : Text) (word : List ℕ) : Prop :=
  ∀ tr, ∃ v, env tr (.getContractStorage ("0x" ++ store64) ("0x" ++ key)) =
    (show Except JsError Value from .ok v) ∧ Holds v word

theorem Holds.text_eq {v : Value} {word : List ℕ} (h : Holds v word) (hw : AreBytes word)
    (hlen : word.length = 32) :
    (h64 ((v.get "value").orElse (.string []))).leftpad 64 '0' = bytesToHex word := by
  have hhex := isHex_bytesToHex word
  have hpad : (bytesToHex word).leftpad 64 '0' = bytesToHex word := by
    rw [List.leftpad, length_bytesToHex hw, hlen]
    rfl
  rcases h with h | h | ⟨h, rfl⟩
  · rw [h]
    change (toLowerCase (strip0x (bytesToHex word))).leftpad 64 '0' = _
    rw [hhex.strip0x_eq, hhex.toLowerCase_eq, hpad]
  · rw [h]
    change (toLowerCase (strip0x ('0' :: 'x' :: bytesToHex word))).leftpad 64 '0' = _
    rw [strip0x_cons_x, hhex.toLowerCase_eq, hpad]
  · rw [Value.orElse, if_pos h]
    decide

section

variable {engine : Engine} {env : Env Answer} {store64 : Text}

theorem returns_blobWord {writer : Text} {id i : ℕ} {word : List ℕ}
    (h : Stores env store64 (blobKey writer id i) word) (hw : AreBytes word)
    (hlen : word.length = 32) :
    Async.Returns env (blobWord store64 writer id i) (bytesToHex word) := by
  intro tr
  obtain ⟨v, hv, hold⟩ := h tr
  have hread : Async.exec env (getContractStorage ("0x" ++ store64) ("0x" ++ blobKey writer id i)) tr =
      (.ok v, (Async.exec env (getContractStorage ("0x" ++ store64)
        ("0x" ++ blobKey writer id i)) tr).2) := Prod.ext hv rfl
  rw [blobWord, Async.exec_bind, hread]
  exact congrArg Except.ok (hold.text_eq hw hlen)

structure IsHeader (word : List ℕ) (encoding len : ℕ) : Prop where
  bytes : AreBytes word
  length : word.length = 32
  magic : word.take 4 = [66, 73, 70, 49]
  encoding : word.getD 4 0 = encoding
  len : word.drop 24 = beBytes 8 len

/-! ## Reading -/

theorem bytesToHex_flatten (ws : List (List ℕ)) :
    (ws.map bytesToHex).flatten = bytesToHex ws.flatten := by
  induction ws with
  | nil => rfl
  | cons w ws ih => rw [List.map_cons, List.flatten_cons, ih, List.flatten_cons, bytesToHex_append]

theorem returns_wordBatches {writer : Text} {id n : ℕ} {b : List ℕ} (hb : AreBytes b)
    (h : ∀ i < n, Stores env store64 (blobKey writer id (i + 1)) (storedWord b i)) :
    ∃ words, Async.Returns env ((wordBatches n).mapM fun batch =>
        Async.all (batch.map (blobWord store64 writer id))) words ∧
      words.flatten.flatten = bytesToHex ((List.range n).map (storedWord b)).flatten := by
  refine ⟨(wordBatches n).map (·.map fun j => bytesToHex (storedWord b (j - 1))),
    Async.returns_mapM fun batch hbatch => Async.returns_all fun j hj => ?_, ?_⟩
  · have hmem : j ∈ (wordBatches n).flatten := List.mem_flatten.mpr ⟨batch, hbatch, hj⟩
    rw [flatten_wordBatches] at hmem
    obtain ⟨i, hi, rfl⟩ := List.mem_map.mp hmem
    exact returns_blobWord (h i (List.mem_range.mp hi)) (areBytes_storedWord hb i)
      (length_storedWord b i)
  · rw [← List.map_flatten, flatten_wordBatches, List.map_map, ← bytesToHex_flatten, List.map_map]
    rfl

variable {writer : List ℕ} {id len encoding : ℕ} {header : List ℕ}

def readStored (engine : Engine) (word : ℕ → Reads Text) (encoding len : ℕ) : Reads (List ℕ) := do
  if len = 0 ∨ blobMaxStoredBytes < len then throw (.error "bad blob length")
  else
    let words ← (wordBatches ((len + 31) / 32)).mapM fun batch => Async.all (batch.map word)
    let stored := (hexToBytes words.flatten.flatten).take len
    match encoding with
    | 0 => return stored
    | 1 => Async.ofExcept (engine.inflateRaw stored)
    | encoding => throw (.error ("unknown blob encoding " ++ decimal encoding))

theorem exec_readInterfaceBlob (hw : AreBytes writer) (hlen : writer.length = 32) (hid : id < 2 ^ 64)
    (hhead : IsHeader header encoding len) (hlt : len < 2 ^ 64)
    (hstore : Stores env store64 (blobKey (bytesToHex writer) id 0) header)
    (hmagic : engine.decode [66, 73, 70, 49] = "BIF1") (tr : Trace Answer) :
    ∃ tr', Async.exec env (readInterfaceBlob engine (blobUri writer id) store64) tr =
      Async.exec env (readStored engine (blobWord store64 (bytesToHex writer) id) encoding len) tr' := by
  have hword := returns_blobWord hstore hhead.bytes hhead.length
  have hnum : numeral 16 (bytesToHex (header.drop 24)) = len := by
    rw [hhead.len, numeral_beBytes]
    exact Nat.mod_eq_of_lt hlt
  refine ⟨(Async.exec env (blobWord store64 (bytesToHex writer) id 0) tr).2, ?_⟩
  rw [readInterfaceBlob, parseBlobUri_blobUri hw hlen hid]
  dsimp only
  rw [Async.exec_bind, hword.exec_eq tr]
  dsimp only
  rw [hexToBytes_bytesToHex hhead.bytes, hhead.magic, if_neg (not_not_intro hmagic), hnum,
    hhead.encoding]
  rfl

theorem areBytes_storedWords {b : List ℕ} (hb : AreBytes b) (n : ℕ) :
    AreBytes ((List.range n).map (storedWord b)).flatten := by
  intro x hx
  obtain ⟨w, hw, hx⟩ := List.mem_flatten.mp hx
  obtain ⟨i, -, rfl⟩ := List.mem_map.mp hw
  exact areBytes_storedWord hb i x hx

theorem returns_readStored (engine : Engine) {writer : Text} {b : List ℕ} (hb : AreBytes b)
    (hpos : 1 ≤ b.length) (hmax : b.length ≤ 24576)
    (hwords : ∀ i, 32 * i < b.length →
      Stores env store64 (blobKey writer id (i + 1)) (storedWord b i)) :
    Async.Returns env (readStored engine (blobWord store64 writer id) 0 b.length) b := by
  obtain ⟨words, hret, hflat⟩ := returns_wordBatches (n := (b.length + 31) / 32) hb
    fun i hi => hwords i (by omega)
  have hstored : (hexToBytes words.flatten.flatten).take b.length = b := by
    rw [hflat, hexToBytes_bytesToHex (areBytes_storedWords hb _), flatten_storedWords (by omega)]
  have hrange : ¬ (b.length = 0 ∨ blobMaxStoredBytes < b.length) := by
    rw [blobMaxStoredBytes]
    omega
  rw [readStored, if_neg hrange]
  refine hret.bind ?_
  rw [hstored]
  exact Async.returns_pure b

/-- **A stored blob is read back**; every word has a key of its own; a bad length is refused. -/
theorem interfaceBlob_law (hmagic : engine.decode [66, 73, 70, 49] = "BIF1") {writer : List ℕ}
    (hw : AreBytes writer) (hlen : writer.length = 32) (store64 : Text) :
    (∀ id < 2 ^ 64, ∀ b : List ℕ, AreBytes b → 1 ≤ b.length → b.length ≤ 24576 →
      ∀ (env : Env Answer) (header : List ℕ), IsHeader header 0 b.length →
        Stores env store64 (blobKey (bytesToHex writer) id 0) header →
        (∀ i, 32 * i < b.length →
          Stores env store64 (blobKey (bytesToHex writer) id (i + 1)) (storedWord b i)) →
        ∀ tr, (Async.exec env (readInterfaceBlob engine (blobUri writer id) store64) tr).1 = .ok b) ∧
    (∀ id < 2 ^ 64, ∀ id' < 2 ^ 64, ∀ index < 2 ^ 32, ∀ index' < 2 ^ 32,
      blobKey (bytesToHex writer) id index = blobKey (bytesToHex writer) id' index' →
        id = id' ∧ index = index') ∧
    (∀ id < 2 ^ 64, ∀ len < 2 ^ 64, len = 0 ∨ 24576 < len →
      ∀ (env : Env Answer) (header : List ℕ) (encoding : ℕ), IsHeader header encoding len →
        Stores env store64 (blobKey (bytesToHex writer) id 0) header →
        ∀ tr, (Async.exec env (readInterfaceBlob engine (blobUri writer id) store64) tr).1 =
          .error (.error "bad blob length")) := by
  refine ⟨?_, ?_, ?_⟩
  · intro id hid b hb hpos hmax env header hhead hstore hwords tr
    obtain ⟨tr', hexec⟩ := exec_readInterfaceBlob hw hlen hid hhead (by omega) hstore hmagic tr
    rw [hexec]
    exact returns_readStored engine hb hpos hmax hwords tr'
  · intro id hid id' hid' index hi index' hi' heq
    have hwriter : (hexToBytes (bytesToHex writer)).length = 32 := by
      rw [hexToBytes_bytesToHex hw, hlen]
    exact blobKey_inj hwriter hid hid' hi hi' heq
  · intro id hid len hlt hbad env header encoding hhead hstore tr
    obtain ⟨tr', hexec⟩ := exec_readInterfaceBlob hw hlen hid hhead hlt hstore hmagic tr
    rw [hexec, readStored, if_pos (show len = 0 ∨ blobMaxStoredBytes < len from hbad)]
    rfl

end

namespace SparseBlob

def engine : Engine where
  numberText := integersOnly
  blake3 _ := []
  decode bytes := bytes.map Char.ofNat
  parse _ := .error .typeError
  inflateRaw := .ok
  engineMessage _ := []

def writer : List ℕ := List.replicate 32 0xaa

def id : ℕ := 2 ^ 63 + 1

def blob : List ℕ := List.replicate 32 0 ++ [7]

def header : List ℕ := [66, 73, 70, 49] ++ List.replicate 20 0 ++ beBytes 8 33

def storage : List (Text × Text) :=
  [("0x" ++ blobKey (bytesToHex writer) id 0, "0x" ++ bytesToHex header),
    ("0x" ++ blobKey (bytesToHex writer) id 2, "0x" ++ bytesToHex (storedWord blob 1))]

def node : Env Answer := fun _ q =>
  match q with
  | .getContractStorage _ key =>
    show Except JsError Value from .ok (match storage.lookup key with
      | some word => .object [("value", .string word)]
      | none => .null)
  | .getAccount _ => show Except JsError Value from .error .typeError
  | .fetch _ => show Except JsError Response from .error .typeError

theorem stores_of_lookup {store64 key : Text} {word : List ℕ}
    (h : storage.lookup ("0x" ++ key) = some ("0x" ++ bytesToHex word)) :
    Stores node store64 key word := by
  intro tr
  refine ⟨.object [("value", .string ("0x" ++ bytesToHex word))], ?_, .inr (.inl rfl)⟩
  change (show Except JsError Value from .ok (match storage.lookup ("0x" ++ key) with
    | some word => .object [("value", .string word)]
    | none => .null)) = _
  rw [h]

theorem stores_of_absent {store64 key : Text} (h : storage.lookup ("0x" ++ key) = none) :
    Stores node store64 key (List.replicate 32 0) := by
  intro tr
  refine ⟨.null, ?_, .inr (.inr ⟨rfl, rfl⟩)⟩
  change (show Except JsError Value from .ok (match storage.lookup ("0x" ++ key) with
    | some word => .object [("value", .string word)]
    | none => .null)) = _
  rw [h]

end SparseBlob

open SparseBlob in
/-- A blob whose first word the node does not have. -/
theorem interfaceBlob_law_sparse :
    (Async.exec node (readInterfaceBlob engine (blobUri writer id) (List.replicate 64 'b')) []).1 =
      .ok blob := by
  refine (interfaceBlob_law (show engine.decode [66, 73, 70, 49] = "BIF1" by decide)
    (show AreBytes writer by unfold AreBytes; decide) (by decide) _).1 id (by decide) blob
    (by unfold AreBytes; decide) (by decide) (by decide) node header ?_ ?_ ?_ []
  · exact ⟨by unfold AreBytes; decide, by decide, by decide, by decide, by decide⟩
  · exact stores_of_lookup (by decide +kernel)
  · intro i hi
    have hi : i < 2 := by
      change 32 * i < 33 at hi
      omega
    obtain rfl | rfl : i = 0 ∨ i = 1 := by omega
    · exact stores_of_absent (by decide +kernel)
    · exact stores_of_lookup (by decide +kernel)

end BoingObserver.Published
