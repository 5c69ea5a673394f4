import Mathlib.Data.List.Basic
import BoingObserver.Utf8

/-!
# Query strings

`URLSearchParams`: a list of names and values, written with `&` and `=` between them.  Bytes
that could be taken for something else are written with `%`, blanks as `+`.

* `parse_serialize`: every list comes back from its text.
* `get_set`, `get_set_of_ne`: a value that is set is read, and no other changes.
-/

namespace BoingObserver.UrlEncoded

/-! ## Bytes -/

def plus : ℕ := 0x2B

def percentSign : ℕ := 0x25

def ampersand : ℕ := 0x26

def equalsSign : ℕ := 0x3D

def questionMark : ℕ := 0x3F

def hexCode (n : ℕ) : ℕ := if n < 10 then 0x30 + n else 0x37 + n

def hexValue? (b : ℕ) : Option ℕ :=
  if 0x30 ≤ b ∧ b ≤ 0x39 then some (b - 0x30)
  else if 0x41 ≤ b ∧ b ≤ 0x46 then some (b - 0x37)
  else if 0x61 ≤ b ∧ b ≤ 0x66 then some (b - 0x57)
  else none

/-- `*`, `-`, `.`, digits, `_` and letters stand for themselves. -/
def isPlain (b : ℕ) : Bool :=
  b ∈ [0x2A, 0x2D, 0x2E, 0x5F] ∨ 0x30 ≤ b ∧ b ≤ 0x39 ∨ 0x41 ≤ b ∧ b ≤ 0x5A ∨ 0x61 ≤ b ∧ b ≤ 0x7A

def encodeByte (b : ℕ) : List ℕ :=
  if b = 0x20 then [plus]
  else if isPlain b then [b]
  else [percentSign, hexCode (b / 16), hexCode (b % 16)]

/-- A sign that no two digits follow stands for itself. -/
def percentDecode : List ℕ → List ℕ
  | b :: h :: l :: bytes =>
    match decide (b = percentSign), hexValue? h, hexValue? l with
    | true, some h', some l' => (16 * h' + l') :: percentDecode bytes
    | _, _, _ => b :: percentDecode (h :: l :: bytes)
  | b :: bytes => b :: percentDecode bytes
  | [] => []

def decodeBytes (bytes : List ℕ) : List ℕ :=
  percentDecode (bytes.map fun b => if b = plus then 0x20 else b)

/-! ## Lists of names and values -/

abbrev Params := List (List Char × List Char)

def encodeText (s : List Char) : List ℕ := (Utf8.encode s).flatMap encodeByte

def decodeText (bytes : List ℕ) : List Char := Utf8.decode (decodeBytes bytes)

def serializePair (p : List Char × List Char) : List ℕ :=
  encodeText p.1 ++ equalsSign :: encodeText p.2

def parsePair (bytes : List ℕ) : List Char × List Char :=
  (decodeText (bytes.takeWhile (· ≠ equalsSign)),
    decodeText ((bytes.dropWhile (· ≠ equalsSign)).drop 1))

def serializeBytes (params : Params) : List ℕ := [ampersand].intercalate (params.map serializePair)

def parseBytes (bytes : List ℕ) : Params :=
  ((bytes.splitOn ampersand).filter (· ≠ [])).map parsePair

/-- `params.toString()` -/
def serialize (params : Params) : List Char := (serializeBytes params).map Char.ofNat

/-- `new URLSearchParams(s)` -/
def parse (s : List Char) : Params :=
  parseBytes (Utf8.encode (if s.head? = some '?' then s.tail else s))

/-- `params.get(name)` -/
def get (params : Params) (name : List Char) : Option (List Char) := params.lookup name

/-- `params.has(name)` -/
def has (params : Params) (name : List Char) : Bool := params.any (·.1 = name)

/-- `params.set(name, value)`: the first pair of the name gets the value, the others go. -/
def set (params : Params) (name value : List Char) : Params :=
  match params with
  | [] => [(name, value)]
  | p :: params =>
    if p.1 = name then (name, value) :: params.filter (·.1 ≠ name) else p :: set params name value

/-! ## Bytes come back -/

theorem hexValue?_hexCode {n : ℕ} (h : n < 16) : hexValue? (hexCode n) = some n := by
  have hall : ∀ n < 16, hexValue? (hexCode n) = some n := by decide
  exact hall n h

theorem hexCode_plain {n : ℕ} (h : n < 16) : isPlain (hexCode n) = true := by
  have hall : ∀ n < 16, isPlain (hexCode n) = true := by decide
  exact hall n h

theorem isPlain_iff {b : ℕ} : isPlain b = true ↔
    (b = 0x2A ∨ b = 0x2D ∨ b = 0x2E ∨ b = 0x5F) ∨ 0x30 ≤ b ∧ b ≤ 0x39 ∨ 0x41 ≤ b ∧ b ≤ 0x5A ∨
      0x61 ≤ b ∧ b ≤ 0x7A := by
  simp [isPlain]

theorem ne_of_isPlain {b : ℕ} (h : isPlain b = true) : b ≠ plus ∧ b ≠ percentSign := by
  have h' := isPlain_iff.mp h
  simp only [plus, percentSign]
  omega

theorem percentDecode_of_ne {b : ℕ} (h : b ≠ percentSign) (bytes : List ℕ) :
    percentDecode (b :: bytes) = b :: percentDecode bytes := by
  match bytes with
  | [] => rfl
  | [_] => rfl
  | _ :: _ :: _ => rw [percentDecode, decide_eq_false h]

theorem decodeBytes_of_isPlain {b : ℕ} (h : isPlain b = true) (bytes : List ℕ) :
    decodeBytes (b :: bytes) = b :: decodeBytes bytes := by
  obtain ⟨hplus, hpercent⟩ := ne_of_isPlain h
  rw [decodeBytes, List.map_cons, if_neg hplus, percentDecode_of_ne hpercent, decodeBytes]

/-- **A byte is read as it was written.** -/
theorem decodeBytes_encodeByte {b : ℕ} (h : b < 256) (bytes : List ℕ) :
    decodeBytes (encodeByte b ++ bytes) = b :: decodeBytes bytes := by
  rw [encodeByte]
  split_ifs with hblank hplain
  · rw [List.singleton_append, decodeBytes, List.map_cons, if_pos rfl,
      percentDecode_of_ne (by decide), hblank, decodeBytes]
  · exact decodeBytes_of_isPlain hplain bytes
  · have hhigh := ne_of_isPlain (hexCode_plain (n := b / 16) (by omega))
    have hlow := ne_of_isPlain (hexCode_plain (n := b % 16) (by omega))
    have hvalue : 16 * (b / 16) + b % 16 = b := Nat.div_add_mod b 16
    rw [List.cons_append, List.cons_append, List.singleton_append, decodeBytes, List.map_cons,
      List.map_cons, List.map_cons, if_neg (by decide), if_neg hhigh.1, if_neg hlow.1,
      percentDecode, hexValue?_hexCode (by omega), hexValue?_hexCode (by omega)]
    exact congrArg (· :: decodeBytes bytes) hvalue

theorem decodeBytes_flatMap {bytes : List ℕ} (h : ∀ b ∈ bytes, b < 256) :
    decodeBytes (bytes.flatMap encodeByte) = bytes := by
  induction bytes with
  | nil => rfl
  | cons b bytes ih =>
    obtain ⟨hb, hbytes⟩ := List.forall_mem_cons.mp h
    rw [List.flatMap_cons, decodeBytes_encodeByte hb, ih hbytes]

/-- **A text is read as it was written.** -/
theorem decodeText_encodeText (s : List Char) : decodeText (encodeText s) = s := by
  rw [decodeText, encodeText, decodeBytes_flatMap (Utf8.encode_lt s), Utf8.decode_bytes]

/-! ## Lists come back -/

/-- What an encoded text is made of: none of the signs between texts, and ASCII only. -/
structure Inner (b : ℕ) : Prop where
  ne_ampersand : b ≠ ampersand
  ne_equalsSign : b ≠ equalsSign
  ne_questionMark : b ≠ questionMark
  ascii : b ≤ 0x7F

theorem inner_of_isPlain {b : ℕ} (h : isPlain b = true) : Inner b := by
  have h' := isPlain_iff.mp h
  have hand : ampersand = 0x26 := rfl
  have hequals : equalsSign = 0x3D := rfl
  have hquestion : questionMark = 0x3F := rfl
  constructor <;> omega

theorem inner_encodeByte {b : ℕ} (h : b < 256) : ∀ x ∈ encodeByte b, Inner x := by
  have hplus : Inner plus := ⟨by decide, by decide, by decide, by decide⟩
  have hpercent : Inner percentSign := ⟨by decide, by decide, by decide, by decide⟩
  rw [encodeByte]
  split_ifs with hblank hb
  · exact List.forall_mem_singleton.mpr hplus
  · exact List.forall_mem_singleton.mpr (inner_of_isPlain hb)
  · refine List.forall_mem_cons.mpr ⟨hpercent, List.forall_mem_cons.mpr ⟨?_, ?_⟩⟩
    · exact inner_of_isPlain (hexCode_plain (by omega))
    · exact List.forall_mem_singleton.mpr (inner_of_isPlain (hexCode_plain (by omega)))

theorem inner_encodeText (s : List Char) : ∀ x ∈ encodeText s, Inner x := by
  intro x hx
  obtain ⟨b, hb, hx⟩ := List.mem_flatMap.mp hx
  exact inner_encodeByte (Utf8.encode_lt s b hb) x hx

theorem mem_serializePair {p : List Char × List Char} {x : ℕ} (h : x ∈ serializePair p) :
    x = equalsSign ∨ Inner x := by
  rcases List.mem_append.mp h with h | h
  · exact .inr (inner_encodeText p.1 x h)
  rcases List.mem_cons.mp h with h | h
  · exact .inl h
  · exact .inr (inner_encodeText p.2 x h)

/-- **A pair is read as it was written.** -/
theorem parsePair_serializePair (p : List Char × List Char) : parsePair (serializePair p) = p := by
  have hne : ∀ x ∈ encodeText p.1, decide (x ≠ equalsSign) = true :=
    fun x hx => decide_eq_true (inner_encodeText p.1 x hx).ne_equalsSign
  rw [parsePair, serializePair, List.takeWhile_append_of_pos hne,
    List.dropWhile_append_of_pos hne, List.takeWhile_cons_of_neg (by simp),
    List.dropWhile_cons_of_neg (by simp), List.append_nil, List.drop_one, List.tail_cons,
    decodeText_encodeText, decodeText_encodeText]

theorem mem_serializeBytes {params : Params} {x : ℕ} (h : x ∈ serializeBytes params) :
    x = ampersand ∨ x = equalsSign ∨ Inner x := by
  induction params with
  | nil => cases h
  | cons p params ih =>
    cases params with
    | nil =>
      rw [serializeBytes, List.map_singleton, List.intercalate_singleton] at h
      exact .inr (mem_serializePair h)
    | cons q params =>
      rw [serializeBytes, List.map_cons, List.map_cons, List.intercalate_cons_cons,
        ← List.map_cons] at h
      rcases List.mem_append.mp h with h | h
      · rcases List.mem_append.mp h with h | h
        · exact .inr (mem_serializePair h)
        · exact .inl (List.mem_singleton.mp h)
      · exact ih h

theorem encode_serialize (params : Params) :
    Utf8.encode (serialize params) = serializeBytes params := by
  refine Utf8.encode_map_ofNat fun x hx => ?_
  rcases mem_serializeBytes hx with rfl | rfl | hx
  · decide
  · decide
  · exact hx.ascii

theorem parseBytes_serializeBytes (params : Params) :
    parseBytes (serializeBytes params) = params := by
  have hpair : ∀ l ∈ params.map serializePair, ampersand ∉ l ∧ l ≠ [] := by
    intro l hl
    obtain ⟨p, -, rfl⟩ := List.mem_map.mp hl
    refine ⟨fun hx => ?_, fun e => ?_⟩
    · rcases mem_serializePair hx with hx | hx
      · exact absurd hx (by decide)
      · exact hx.ne_ampersand rfl
    · exact List.cons_ne_nil _ _ (List.append_eq_nil_iff.mp e).2
  cases params with
  | nil => decide
  | cons p params =>
    rw [parseBytes, serializeBytes,
      List.splitOn_intercalate _ (fun l hl => (hpair l hl).1) (List.cons_ne_nil _ _),
      List.filter_eq_self.mpr fun l hl => decide_eq_true (hpair l hl).2, List.map_map]
    exact (List.map_congr_left fun q _ => parsePair_serializePair q).trans (List.map_id _)

/-- **Every list comes back from its text**, with a `?` before it or without. -/
theorem parse_serialize (params : Params) :
    parse (serialize params) = params ∧ parse ('?' :: serialize params) = params := by
  have hbytes : parseBytes (Utf8.encode (serialize params)) = params := by
    rw [encode_serialize, parseBytes_serializeBytes]
  have hhead : (serialize params).head? ≠ some '?' := by
    intro h
    have hmem : '?' ∈ serialize params := List.mem_of_mem_head? h
    have hcode : Char.toNat '?' ∈ Utf8.encode (serialize params) :=
      List.mem_flatMap.mpr ⟨'?', hmem, by decide⟩
    rw [encode_serialize] at hcode
    rcases mem_serializeBytes hcode with h | h | h
    · exact absurd h (by decide)
    · exact absurd h (by decide)
    · exact h.ne_questionMark rfl
  refine ⟨?_, ?_⟩
  · rw [parse, if_neg hhead, hbytes]
  · exact hbytes

theorem serialize_of_isPlain {name value : List Char} (hname : ∀ c ∈ name, isPlain c.toNat = true)
    (hvalue : ∀ c ∈ value, isPlain c.toNat = true) :
    serialize [(name, value)] = name ++ '=' :: value := by
  have htext : ∀ {s : List Char}, (∀ c ∈ s, isPlain c.toNat = true) →
      (encodeText s).map Char.ofNat = s := by
    intro s hs
    have hbytes : ∀ b ∈ s.map Char.toNat, encodeByte b = [b] := by
      intro b hb
      obtain ⟨c, hc, rfl⟩ := List.mem_map.mp hb
      have hblank : c.toNat ≠ 0x20 := fun e => by
        have hplain := isPlain_iff.mp (hs c hc)
        omega
      rw [encodeByte, if_neg hblank, if_pos (hs c hc)]
    rw [encodeText, Utf8.encode_of_ascii fun c hc => (inner_of_isPlain (hs c hc)).ascii,
      List.flatMap_congr hbytes, List.flatMap_singleton', List.map_map]
    exact (List.map_congr_left fun c _ => Char.ofNat_toNat c).trans (List.map_id s)
  rw [serialize, serializeBytes, List.map_singleton, List.intercalate_singleton, serializePair,
    List.map_append, List.map_cons, htext hname, htext hvalue]
  rfl

/-! ## Values -/

theorem lookup_filter_ne {params : Params} {name name' : List Char} (h : name' ≠ name) :
    (params.filter (·.1 ≠ name)).lookup name' = params.lookup name' := by
  induction params with
  | nil => rfl
  | cons p params ih =>
    by_cases hp : p.1 = name
    · have hne : (name' == p.1) = false := by
        rw [hp]
        exact beq_eq_false_iff_ne.mpr h
      rw [List.filter_cons_of_neg (by simp [hp]), ih, List.lookup_cons, hne]
    · rw [List.filter_cons_of_pos (by simp [hp]), List.lookup_cons, List.lookup_cons, ih]

theorem has_eq_isSome (params : Params) (name : List Char) :
    has params name = (get params name).isSome := by
  induction params with
  | nil => rfl
  | cons p params ih =>
    by_cases hp : p.1 = name
    · simp [has, get, hp]
    · have hne : (name == p.1) = false := beq_eq_false_iff_ne.mpr (Ne.symm hp)
      rw [has, List.any_cons, ← has, ih, decide_eq_false hp, Bool.false_or, get, get,
        List.lookup_cons, hne]

theorem get_set (params : Params) (name value : List Char) :
    get (set params name value) name = some value := by
  induction params with
  | nil => simp [set, get]
  | cons p params ih =>
    rw [set]
    split_ifs with hp
    · simp [get]
    · have hne : (name == p.1) = false := beq_eq_false_iff_ne.mpr (Ne.symm hp)
      rw [get, List.lookup_cons, hne]
      exact ih

theorem get_set_of_ne (params : Params) {name name' : List Char} (h : name' ≠ name)
    (value : List Char) : get (set params name value) name' = get params name' := by
  have hname : (name' == name) = false := beq_eq_false_iff_ne.mpr h
  induction params with
  | nil => simp [set, get, hname]
  | cons p params ih =>
    rw [set]
    split_ifs with hp
    · rw [get, List.lookup_cons, hname, get, List.lookup_cons, hp, hname]
      exact lookup_filter_ne h
    · rw [get, List.lookup_cons, get, List.lookup_cons]
      cases name' == p.1 with
      | true => rfl
      | false => exact ih

end BoingObserver.UrlEncoded
