import Mathlib.Data.List.Basic

/-!
# UTF-8

Characters as bytes, and the decoder that replaces what is not UTF-8.  It reads byte by byte
and keeps what it still needs of a character.

* `decode_bytes`: a text comes back from its bytes.
* `stripMark_encode`: a text without a byte-order mark loses nothing to its removal.
-/

namespace BoingObserver.Utf8

def charBytes (c : Char) : List ℕ := (String.utf8EncodeChar c).map UInt8.toNat

def encode (s : List Char) : List ℕ := s.flatMap charBytes

/-- What the decoder puts for bytes that are no character. -/
def replacement : Char := Char.ofNat 0xFFFD

/-- A character of which bytes are still to come: how many, its bits so far, and the bounds of the
next byte. -/
structure Pending where
  needed : ℕ
  bits : ℕ
  lower : ℕ := 0x80
  upper : ℕ := 0xBF

def first (b : ℕ) : Option Pending × List Char :=
  if b ≤ 0x7F then (none, [Char.ofNat b])
  else if 0xC2 ≤ b ∧ b ≤ 0xDF then (some { needed := 1, bits := b - 0xC0 }, [])
  else if 0xE0 ≤ b ∧ b ≤ 0xEF then
    (some { needed := 2
            bits := b - 0xE0
            lower := if b = 0xE0 then 0xA0 else 0x80
            upper := if b = 0xED then 0x9F else 0xBF }, [])
  else if 0xF0 ≤ b ∧ b ≤ 0xF4 then
    (some { needed := 3
            bits := b - 0xF0
            lower := if b = 0xF0 then 0x90 else 0x80
            upper := if b = 0xF4 then 0x8F else 0xBF }, [])
  else (none, [replacement])

/-- The next byte; one out of bounds is the first of another character. -/
def next : Option Pending → ℕ → Option Pending × List Char
  | none, b => first b
  | some p, b =>
    if p.lower ≤ b ∧ b ≤ p.upper then
      let bits := p.bits * 64 + (b - 0x80)
      if p.needed = 1 then (none, [Char.ofNat bits])
      else (some { needed := p.needed - 1, bits }, [])
    else ((first b).1, replacement :: (first b).2)

def decodeFrom : Option Pending → List ℕ → List Char
  | p, [] => if p.isSome then [replacement] else []
  | p, b :: bytes => (next p b).2 ++ decodeFrom (next p b).1 bytes

def decode (bytes : List ℕ) : List Char := decodeFrom none bytes

def mark : Char := Char.ofNat 0xFEFF

/-- A byte-order mark at the start is left out. -/
def stripMark (bytes : List ℕ) : List ℕ :=
  if [0xEF, 0xBB, 0xBF].isPrefixOf bytes then bytes.drop 3 else bytes

/-! ## Characters -/

theorem next_of_mem {p : Pending} {b : ℕ} (hl : p.lower ≤ b) (hu : b ≤ p.upper)
    (hn : p.needed ≠ 1) :
    next (some p) b =
      (some { needed := p.needed - 1, bits := p.bits * 64 + (b - 0x80) }, []) := by
  rw [next, if_pos ⟨hl, hu⟩, if_neg hn]

theorem next_last {p : Pending} {b : ℕ} (hl : p.lower ≤ b) (hu : b ≤ p.upper)
    (hn : p.needed = 1) : next (some p) b = (none, [Char.ofNat (p.bits * 64 + (b - 0x80))]) := by
  rw [next, if_pos ⟨hl, hu⟩, if_pos hn]

theorem toNat_lt (c : Char) : c.toNat < 0x110000 := by
  rcases c.valid with h | ⟨-, h⟩
  · exact Nat.lt_trans h (by omega)
  · exact h

theorem charBytes_one {c : Char} (h : c.toNat ≤ 0x7F) : charBytes c = [c.toNat] := by
  have h' : c.val.toNat ≤ 0x7F := h
  rw [charBytes, String.utf8EncodeChar, if_pos h', List.map_singleton, UInt8.toNat_ofNat']
  exact congrArg (fun n => [n]) (Nat.mod_eq_of_lt (by omega))

theorem charBytes_two {c : Char} (h : 0x7F < c.toNat) (h' : c.toNat ≤ 0x7FF) :
    charBytes c = [c.toNat / 64 + 0xC0, c.toNat % 64 + 0x80] := by
  have hn : ¬ c.val.toNat ≤ 0x7F := Nat.not_le.mpr h
  have hn' : c.val.toNat ≤ 0x7FF := h'
  have hv : c.val.toNat = c.toNat := rfl
  rw [charBytes, String.utf8EncodeChar, if_neg hn, if_pos hn']
  simp only [List.map_cons, List.map_nil, UInt8.toNat_ofNat', List.cons.injEq, and_true, hv]
  omega

theorem charBytes_three {c : Char} (h : 0x7FF < c.toNat) (h' : c.toNat ≤ 0xFFFF) :
    charBytes c = [c.toNat / 4096 + 0xE0, c.toNat / 64 % 64 + 0x80, c.toNat % 64 + 0x80] := by
  have hn : ¬ c.val.toNat ≤ 0x7F := Nat.not_le.mpr (Nat.lt_trans (by omega) h)
  have hn' : ¬ c.val.toNat ≤ 0x7FF := Nat.not_le.mpr h
  have hn'' : c.val.toNat ≤ 0xFFFF := h'
  have hv : c.val.toNat = c.toNat := rfl
  rw [charBytes, String.utf8EncodeChar, if_neg hn, if_neg hn', if_pos hn'']
  simp only [List.map_cons, List.map_nil, UInt8.toNat_ofNat', List.cons.injEq, and_true, hv]
  omega

theorem charBytes_four {c : Char} (h : 0xFFFF < c.toNat) :
    charBytes c = [c.toNat / 262144 + 0xF0, c.toNat / 4096 % 64 + 0x80,
      c.toNat / 64 % 64 + 0x80, c.toNat % 64 + 0x80] := by
  have hn : ¬ c.val.toNat ≤ 0x7F := Nat.not_le.mpr (Nat.lt_trans (by omega) h)
  have hn' : ¬ c.val.toNat ≤ 0x7FF := Nat.not_le.mpr (Nat.lt_trans (by omega) h)
  have hn'' : ¬ c.val.toNat ≤ 0xFFFF := Nat.not_le.mpr h
  have hv : c.val.toNat = c.toNat := rfl
  have hmax := toNat_lt c
  rw [charBytes, String.utf8EncodeChar, if_neg hn, if_neg hn', if_neg hn'']
  simp only [List.map_cons, List.map_nil, UInt8.toNat_ofNat', List.cons.injEq, and_true, hv]
  omega

/-- No character is a surrogate. -/
theorem not_surrogate (c : Char) : c.toNat < 0xD800 ∨ 0xDFFF < c.toNat := by
  rcases c.valid with hc | ⟨hc, -⟩
  · exact .inl hc
  · exact .inr hc

theorem decodeFrom_of_next {p q : Option Pending} {b : ℕ} {o : List Char}
    (h : next p b = (q, o)) (bytes : List ℕ) :
    decodeFrom p (b :: bytes) = o ++ decodeFrom q bytes := by
  rw [decodeFrom, h]

theorem decodeFrom_last {p : Pending} {d : ℕ} {c : Char} (hn : p.needed = 1)
    (hl : p.lower ≤ d + 0x80) (hu : d + 0x80 ≤ p.upper) (hc : p.bits * 64 + d = c.toNat)
    (bytes : List ℕ) : decodeFrom (some p) ((d + 0x80) :: bytes) = c :: decodeFrom none bytes := by
  refine decodeFrom_of_next (o := [c]) ?_ bytes
  rw [next_last hl hu hn, Nat.add_sub_cancel, hc, Char.ofNat_toNat]

theorem decodeFrom_more {p : Pending} {d : ℕ} (hn : p.needed ≠ 1)
    (hl : p.lower ≤ d + 0x80) (hu : d + 0x80 ≤ p.upper) (bytes : List ℕ) :
    decodeFrom (some p) ((d + 0x80) :: bytes) =
      decodeFrom (some { needed := p.needed - 1, bits := p.bits * 64 + d }) bytes := by
  refine decodeFrom_of_next (o := []) ?_ bytes
  rw [next_of_mem hl hu hn, Nat.add_sub_cancel]

/-- **A character is read from its bytes**, whatever follows. -/
theorem decodeFrom_charBytes (c : Char) (bytes : List ℕ) :
    decodeFrom none (charBytes c ++ bytes) = c :: decodeFrom none bytes := by
  have hsurrogate := not_surrogate c
  have hmax := toNat_lt c
  by_cases h1 : c.toNat ≤ 0x7F
  · rw [charBytes_one h1]
    refine decodeFrom_of_next (o := [c]) ?_ bytes
    rw [next, first, if_pos h1, Char.ofNat_toNat]
  by_cases h2 : c.toNat ≤ 0x7FF
  · have hfirst : next none (c.toNat / 64 + 0xC0) =
        (some { needed := 1, bits := c.toNat / 64 }, []) := by
      rw [next, first, if_neg (by omega), if_pos (by omega), Nat.add_sub_cancel]
    rw [charBytes_two (by omega) h2]
    refine (decodeFrom_of_next hfirst _).trans ?_
    exact decodeFrom_last rfl (by simp only; omega) (by simp only; omega) (by simp only; omega)
      bytes
  by_cases h3 : c.toNat ≤ 0xFFFF
  · have hfirst : next none (c.toNat / 4096 + 0xE0) =
        (some { needed := 2
                bits := c.toNat / 4096
                lower := if c.toNat / 4096 + 0xE0 = 0xE0 then 0xA0 else 0x80
                upper := if c.toNat / 4096 + 0xE0 = 0xED then 0x9F else 0xBF }, []) := by
      rw [next, first, if_neg (by omega), if_neg (by omega), if_pos (by omega), Nat.add_sub_cancel]
    rw [charBytes_three (by omega) h3]
    refine (decodeFrom_of_next hfirst _).trans ?_
    refine (decodeFrom_more ?_ ?_ ?_ _).trans ?_
    · simp only
      omega
    · simp only
      split_ifs <;> omega
    · simp only
      split_ifs <;> omega
    exact decodeFrom_last rfl (by simp only; omega) (by simp only; omega) (by simp only; omega)
      bytes
  · have hfirst : next none (c.toNat / 262144 + 0xF0) =
        (some { needed := 3
                bits := c.toNat / 262144
                lower := if c.toNat / 262144 + 0xF0 = 0xF0 then 0x90 else 0x80
                upper := if c.toNat / 262144 + 0xF0 = 0xF4 then 0x8F else 0xBF }, []) := by
      rw [next, first, if_neg (by omega), if_neg (by omega), if_neg (by omega), if_pos (by omega),
        Nat.add_sub_cancel]
    rw [charBytes_four (by omega)]
    refine (decodeFrom_of_next hfirst _).trans ?_
    refine (decodeFrom_more ?_ ?_ ?_ _).trans ?_
    · simp only
      omega
    · simp only
      split_ifs <;> omega
    · simp only
      split_ifs <;> omega
    refine (decodeFrom_more (by simp only; omega) (by simp only; omega) (by simp only; omega)
      _).trans ?_
    exact decodeFrom_last rfl (by simp only; omega) (by simp only; omega) (by simp only; omega)
      bytes

/-! ## Texts -/

/-- **A text comes back from its bytes.** -/
theorem decode_bytes (s : List Char) : decode (encode s) = s := by
  induction s with
  | nil => rfl
  | cons c s ih =>
    rw [decode, encode, List.flatMap_cons, decodeFrom_charBytes]
    exact congrArg (c :: ·) ih

theorem encode_of_ascii {s : List Char} (h : ∀ c ∈ s, c.toNat ≤ 0x7F) :
    encode s = s.map Char.toNat := by
  induction s with
  | nil => rfl
  | cons c s ih =>
    obtain ⟨hc, hs⟩ := List.forall_mem_cons.mp h
    rw [encode, List.flatMap_cons, charBytes_one hc, ← encode, ih hs]
    rfl

theorem encode_map_ofNat {bytes : List ℕ} (h : ∀ b ∈ bytes, b ≤ 0x7F) :
    encode (bytes.map Char.ofNat) = bytes := by
  have hchar : ∀ b ∈ bytes, (Char.ofNat b).toNat = b := fun b hb => by
    rw [Char.ofNat, dif_pos (.inl (Nat.lt_of_le_of_lt (h b hb) (by omega)))]
    rfl
  rw [encode_of_ascii, List.map_map]
  · exact (List.map_congr_left hchar).trans (List.map_id bytes)
  · intro c hc
    obtain ⟨b, hb, rfl⟩ := List.mem_map.mp hc
    rw [hchar b hb]
    exact h b hb

theorem encode_lt (s : List Char) : ∀ b ∈ encode s, b < 256 := by
  intro b hb
  obtain ⟨c, -, hc⟩ := List.mem_flatMap.mp hb
  obtain ⟨byte, -, rfl⟩ := List.mem_map.mp hc
  exact byte.toNat_lt

/-- **A text without a mark at its start** loses nothing. -/
theorem stripMark_encode {s : List Char} (h : s.head? ≠ some mark) :
    stripMark (encode s) = encode s := by
  rw [stripMark, if_neg]
  intro hprefix
  obtain ⟨bytes, hbytes⟩ := List.isPrefixOf_iff_prefix.mp hprefix
  have hmark : [0xEF, 0xBB, 0xBF] = charBytes mark := by decide
  have hs := decode_bytes s
  rw [← hbytes, hmark, decode, decodeFrom_charBytes] at hs
  rw [← hs] at h
  exact h rfl

end BoingObserver.Utf8
