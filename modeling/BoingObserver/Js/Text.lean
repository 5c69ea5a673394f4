import Mathlib.Data.List.DropRight
import Mathlib.Data.List.Infix
import Mathlib.Data.List.Nodup
import Mathlib.Tactic.Ring

/-!
# Texts

JavaScript strings, as the list of their characters, with the string functions
the explorer's parsers are built from: `trim`, `toLowerCase`, `slice`, the
`0x` prefix and the hexadecimal character class.

JavaScript counts UTF-16 units (`utf16Length`) where a `Text` counts characters;
on ASCII texts the two counts agree.
-/

namespace BoingObserver.Js

/-- A JavaScript string. -/
abbrev Text := List Char

instance : Coe String Text := ⟨String.toList⟩

instance (t : Text) (ts : List Text) : Decidable (t ∈ ts) := List.instDecidableMemOfLawfulBEq t ts

/-- `s.length`, in UTF-16 units. -/
def utf16Length (s : Text) : ℕ := (s.map fun c => if c.toNat < 0x10000 then 1 else 2).sum

theorem length_le_utf16Length (s : Text) : s.length ≤ utf16Length s := by
  induction s with
  | nil => exact le_rfl
  | cons c s ih =>
    rw [utf16Length, List.map_cons, List.sum_cons, ← utf16Length, List.length_cons]
    split <;> omega

theorem utf16Length_eq_length {s : Text} (h : ∀ c ∈ s, c.toNat < 0x10000) :
    utf16Length s = s.length := by
  induction s with
  | nil => rfl
  | cons c s ih =>
    obtain ⟨hc, hs⟩ := List.forall_mem_cons.mp h
    rw [utf16Length, List.map_cons, List.sum_cons, ← utf16Length, ih hs, if_pos hc,
      List.length_cons, Nat.add_comm]

def textLe : Text → Text → Bool
  | [], _ => true
  | _ :: _, [] => false
  | a :: s, b :: t => a.toNat < b.toNat || (a = b && textLe s t)

/-- White space and line terminators, as `trim` strips them. -/
def isSpace (c : Char) : Bool :=
  [0x9, 0xA, 0xB, 0xC, 0xD, 0x20, 0xA0, 0x1680, 0x2028, 0x2029, 0x202F, 0x205F, 0x3000,
    0xFEFF].contains c.toNat || (0x2000 ≤ c.toNat && c.toNat ≤ 0x200A)

/-- `s.trim()` -/
def trim (s : Text) : Text := (s.dropWhile isSpace).rdropWhile isSpace

/-- One character of `toLowerCase`.  Besides `A`-`Z` only the Kelvin sign has an
ASCII letter as its lower case, so the result is exact wherever a lower-cased
text is compared with an ASCII one. -/
def lowerChar (c : Char) : Char :=
  if 'A' ≤ c ∧ c ≤ 'Z' then Char.ofNat (c.toNat + 32)
  else if c.toNat = 0x212A then 'k' else c

/-- `s.toLowerCase()` -/
def toLowerCase (s : Text) : Text := s.map lowerChar

theorem toNat_ofNat_of_lt {n : ℕ} (h : n < 256) : (Char.ofNat n).toNat = n := by
  rw [Char.ofNat, dif_pos (Or.inl (by omega))]
  rfl

theorem lowerChar_eq_self {c : Char} (h : c.toNat < 65 ∨ 90 < c.toNat) (hk : c.toNat ≠ 0x212A) :
    lowerChar c = c := by
  have hupper : ¬ ('A' ≤ c ∧ c ≤ 'Z') := by
    rintro ⟨ha, hz⟩
    have ha' : 65 ≤ c.toNat := ha
    have hz' : c.toNat ≤ 90 := hz
    omega
  rw [lowerChar, if_neg hupper, if_neg hk]

theorem lowerChar_lowerChar (c : Char) : lowerChar (lowerChar c) = lowerChar c := by
  by_cases hupper : 'A' ≤ c ∧ c ≤ 'Z'
  · have hc : c = Char.ofNat c.toNat := (Char.ofNat_toNat c).symm
    have hcap : ∀ n < 91, 65 ≤ n →
        lowerChar (lowerChar (Char.ofNat n)) = lowerChar (Char.ofNat n) := by decide
    rw [hc]
    exact hcap c.toNat (Nat.lt_succ_of_le hupper.2) hupper.1
  · by_cases hk : c.toNat = 0x212A
    · have hlower : lowerChar c = 'k' := by rw [lowerChar, if_neg hupper, if_pos hk]
      rw [hlower]
      rfl
    · have hself : lowerChar c = c := by rw [lowerChar, if_neg hupper, if_neg hk]
      rw [hself, hself]

@[simp] theorem length_toLowerCase (s : Text) : (toLowerCase s).length = s.length :=
  List.length_map ..

theorem toLowerCase_append (s t : Text) : toLowerCase (s ++ t) = toLowerCase s ++ toLowerCase t :=
  List.map_append

theorem toLowerCase_eq_self {s : Text} (h : ∀ c ∈ s, lowerChar c = c) : toLowerCase s = s := by
  rw [toLowerCase, List.map_congr_left h]
  exact List.map_id s

theorem toLowerCase_toLowerCase (s : Text) : toLowerCase (toLowerCase s) = toLowerCase s := by
  rw [toLowerCase, toLowerCase, List.map_map]
  exact List.map_congr_left fun c _ => lowerChar_lowerChar c

theorem trim_eq_self {s : Text} (h : ∀ c ∈ s, isSpace c = false) : trim s = s := by
  have hd : s.dropWhile isSpace = s := by
    cases s with
    | nil => rfl
    | cons c s => simp [h c (by simp)]
  rw [trim, hd, List.rdropWhile_eq_self_iff]
  intro hne
  simp [h _ (List.getLast_mem hne)]

theorem dropWhile_eq_self {p : Char → Bool} {s t : Text} (h : t <+: s.dropWhile p) :
    t.dropWhile p = t := by
  cases t with
  | nil => rfl
  | cons c t =>
    obtain ⟨u, hu⟩ := h
    have hne : s.dropWhile p ≠ [] := by
      rw [← hu]
      exact List.cons_ne_nil _ _
    have hc : p c = false := by
      have hhead := List.head_dropWhile_not p hne
      simpa only [← hu, List.cons_append, List.head_cons] using hhead
    rw [List.dropWhile_cons, hc]
    rfl

/-- **Trimming again changes nothing.** -/
theorem trim_trim (s : Text) : trim (trim s) = trim s := by
  have hstart : (trim s).dropWhile isSpace = trim s :=
    dropWhile_eq_self (List.rdropWhile_prefix isSpace _)
  rw [trim, hstart]
  exact List.rdropWhile_idempotent isSpace _

/-! ## Slices and prefixes -/

/-- `s.slice(a, b)` for `0 ≤ a ≤ b`. -/
def slice (s : Text) (a b : ℕ) : Text := (s.drop a).take (b - a)

/-- `s.slice(-n)` -/
def sliceEnd (s : Text) (n : ℕ) : Text := s.drop (s.length - n)

/-- `s.replace(/^0x/i, "")` -/
def strip0x (s : Text) : Text :=
  if s.take 2 = ['0', 'x'] ∨ s.take 2 = ['0', 'X'] then s.drop 2 else s

@[simp] theorem strip0x_cons_x (s : Text) : strip0x ('0' :: 'x' :: s) = s := by
  simp [strip0x]

theorem slice_append_left {s : Text} {n : ℕ} (h : s.length = n) (t : Text) :
    slice (s ++ t) 0 n = s := by
  rw [slice, List.drop_zero, Nat.sub_zero]
  exact List.take_left' h

theorem strip0x_eq_self {s : Text} (h : ∀ c ∈ s, c ≠ 'x' ∧ c ≠ 'X') : strip0x s = s := by
  rw [strip0x, if_neg]
  rintro (e | e)
  · have hx : 'x' ∈ s.take 2 := by rw [e]; simp
    exact (h 'x' (List.mem_of_mem_take hx)).1 rfl
  · have hx : 'X' ∈ s.take 2 := by rw [e]; simp
    exact (h 'X' (List.mem_of_mem_take hx)).2 rfl

/-- `s.includes(t)` -/
def includes (s t : Text) : Bool := s.tails.any t.isPrefixOf

theorem includes_iff {s t : Text} : includes s t = true ↔ t <:+: s := by
  rw [includes, List.any_eq_true, List.infix_iff_prefix_suffix]
  refine exists_congr fun u => ?_
  rw [List.mem_tails, List.isPrefixOf_iff_prefix]
  exact and_comm

/-- `a || b` on optional texts: absent and empty texts are falsy. -/
def orText : Option Text → Option Text → Option Text
  | some (c :: s), _ => some (c :: s)
  | _, b => b

/-- A text that is not empty and not listed yet goes to the end of a list. -/
def addNew (out : List Text) (t : Text) : List Text := if t = [] ∨ t ∈ out then out else out ++ [t]

theorem mem_foldl_addNew {ts out : List Text} {t : Text} :
    t ∈ ts.foldl addNew out ↔ t ∈ out ∨ t ∈ ts ∧ t ≠ [] := by
  induction ts generalizing out with
  | nil => simp
  | cons u ts ih =>
    have hstep : t ∈ addNew out u ↔ t ∈ out ∨ t = u ∧ t ≠ [] := by
      unfold addNew
      split
      next h =>
        refine ⟨Or.inl, ?_⟩
        rintro (hmem | ⟨rfl, hne⟩)
        · exact hmem
        · exact h.resolve_left hne
      next h =>
        rw [List.mem_append, List.mem_singleton]
        refine or_congr_right ⟨?_, And.left⟩
        rintro rfl
        exact ⟨rfl, fun hnil => h (Or.inl hnil)⟩
    rw [List.foldl_cons, ih, hstep, List.mem_cons, or_assoc, ← or_and_right]

theorem nodup_foldl_addNew {ts out : List Text} (h : out.Nodup) : (ts.foldl addNew out).Nodup := by
  induction ts generalizing out with
  | nil => exact h
  | cons t ts ih =>
    refine ih ?_
    rw [addNew]
    split
    · exact h
    next hnew =>
      refine List.nodup_append.mpr ⟨h, List.nodup_singleton t, ?_⟩
      rintro a ha b hb rfl
      exact hnew (Or.inr (List.mem_singleton.mp hb ▸ ha))

/-! ## Blocks of one length -/

/-- The blocks `s.slice(0, k)`, `s.slice(k, 2k)`, … of a text. -/
def chunks (k : ℕ) (s : Text) : List Text :=
  (List.range (s.length / k)).map fun i => slice s (k * i) (k * i + k)

@[simp] theorem chunks_nil (k : ℕ) : chunks k [] = [] := by simp [chunks]

theorem chunks_append {k : ℕ} (hk : 0 < k) {w : Text} (hw : w.length = k) (s : Text) :
    chunks k (w ++ s) = w :: chunks k s := by
  have hlen : (w ++ s).length / k = s.length / k + 1 := by
    rw [List.length_append, hw, Nat.add_comm, Nat.add_div_right _ hk]
  rw [chunks, hlen, List.range_succ_eq_map, List.map_cons, List.map_map, chunks]
  refine congrArg₂ List.cons ?_ (List.map_congr_left fun i _ => ?_)
  · simp [slice, ← hw]
  · have h1 : k * (i + 1) = w.length + k * i := by rw [hw]; ring
    simp only [Function.comp, slice, Nat.succ_eq_add_one]
    rw [h1, List.drop_append, List.drop_eq_nil_of_le (by omega), List.nil_append,
      Nat.add_sub_cancel_left, Nat.add_sub_cancel_left, Nat.add_sub_cancel_left]

/-- **Cutting undoes joining.** -/
theorem chunks_flatten {k : ℕ} (hk : 0 < k) {ws : List Text} (h : ∀ w ∈ ws, w.length = k) :
    chunks k ws.flatten = ws := by
  induction ws with
  | nil => simp
  | cons w ws ih =>
    rw [List.flatten_cons, chunks_append hk (h w (by simp)), ih fun v hv => h v (by simp [hv])]

theorem exists_chunks {k : ℕ} (hk : 0 < k) : ∀ {s : Text}, s.length % k = 0 →
    ∃ ws : List Text, (∀ w ∈ ws, w.length = k) ∧ s = ws.flatten := by
  intro s
  induction hn : s.length using Nat.strong_induction_on generalizing s with
  | _ n ih =>
    intro hmod
    by_cases h0 : s = []
    · exact ⟨[], by simp, by simp [h0]⟩
    · have hpos := List.length_pos_iff.mpr h0
      have hle : k ≤ s.length := Nat.le_of_dvd hpos (Nat.dvd_of_mod_eq_zero (hn ▸ hmod))
      obtain ⟨ws, hws, hs⟩ := ih (s.drop k).length (by rw [List.length_drop]; omega) rfl
        (by rw [List.length_drop, hn, ← Nat.mod_eq_sub_mod (by omega)]; exact hmod)
      refine ⟨s.take k :: ws, ?_, ?_⟩
      · intro w hw
        rcases List.mem_cons.mp hw with rfl | hw
        · rw [List.length_take]; omega
        · exact hws w hw
      · rw [List.flatten_cons, ← hs, List.take_append_drop]

theorem chunks_length_eq {k : ℕ} (hk : 0 < k) {s : Text} (hs : s.length % k = 0) :
    (∀ w ∈ chunks k s, w.length = k) ∧ (chunks k s).flatten = s := by
  obtain ⟨ws, hws, rfl⟩ := exists_chunks hk hs
  rw [chunks_flatten hk hws]
  exact ⟨hws, rfl⟩

/-! ## Hexadecimal texts -/

/-- The character class `[0-9a-f]`. -/
def isHexDigit (c : Char) : Bool := ('0' ≤ c && c ≤ '9') || ('a' ≤ c && c ≤ 'f')

theorem isHexDigit_iff {c : Char} :
    isHexDigit c = true ↔ (48 ≤ c.toNat ∧ c.toNat ≤ 57) ∨ (97 ≤ c.toNat ∧ c.toNat ≤ 102) := by
  simp only [isHexDigit, Bool.or_eq_true, Bool.and_eq_true, decide_eq_true_eq]
  exact Iff.rfl

/-- A text of the class `[0-9a-f]*`. -/
def IsHex (s : Text) : Prop := ∀ c ∈ s, isHexDigit c = true

instance (s : Text) : Decidable (IsHex s) :=
  decidable_of_iff (s.all isHexDigit = true) List.all_eq_true

/-- A text of the class `\d+`. -/
def IsDigits (s : Text) : Prop := s ≠ [] ∧ ∀ c ∈ s, c.isDigit = true

instance (s : Text) : Decidable (IsDigits s) :=
  decidable_of_iff (s ≠ [] ∧ s.all Char.isDigit = true) (and_congr_right' List.all_eq_true)

theorem isHexDigit_of_isDigit {c : Char} (h : c.isDigit = true) : isHexDigit c = true := by
  rw [isHexDigit, Bool.or_eq_true]
  exact Or.inl h

theorem IsDigits.isHex {s : Text} (h : IsDigits s) : IsHex s :=
  fun c hc => isHexDigit_of_isDigit (h.2 c hc)

theorem lowerChar_of_isHexDigit {c : Char} (h : isHexDigit c = true) : lowerChar c = c := by
  rw [isHexDigit_iff] at h
  exact lowerChar_eq_self (by omega) (by omega)

theorem isSpace_of_printable {c : Char} (h : 0x20 < c.toNat) (h' : c.toNat < 0x7F) :
    isSpace c = false := by
  have h1 : ¬ (0x2000 ≤ c.toNat ∧ c.toNat ≤ 0x200A) := by omega
  simp only [isSpace, List.contains_cons, List.contains_nil, Bool.or_false]
  simp only [Bool.or_eq_false_iff, beq_eq_false_iff_ne, Bool.and_eq_false_iff,
    decide_eq_false_iff_not]
  omega

theorem isSpace_of_isHexDigit {c : Char} (h : isHexDigit c = true) : isSpace c = false := by
  rw [isHexDigit_iff] at h
  exact isSpace_of_printable (by omega) (by omega)

theorem ne_x_of_isHexDigit {c : Char} (h : isHexDigit c = true) : c ≠ 'x' ∧ c ≠ 'X' := by
  constructor <;> rintro rfl <;> exact absurd h (by decide)

theorem IsHex.toLowerCase_eq {s : Text} (h : IsHex s) : toLowerCase s = s :=
  toLowerCase_eq_self fun c hc => lowerChar_of_isHexDigit (h c hc)

theorem IsHex.trim_eq {s : Text} (h : IsHex s) : trim s = s :=
  trim_eq_self fun c hc => isSpace_of_isHexDigit (h c hc)

theorem IsHex.strip0x_eq {s : Text} (h : IsHex s) : strip0x s = s :=
  strip0x_eq_self fun c hc => ne_x_of_isHexDigit (h c hc)

theorem IsHex.append {s t : Text} (hs : IsHex s) (ht : IsHex t) : IsHex (s ++ t) := by
  intro c hc
  rcases List.mem_append.mp hc with hc | hc
  · exact hs c hc
  · exact ht c hc

theorem IsHex.take {s : Text} (h : IsHex s) (n : ℕ) : IsHex (s.take n) :=
  fun c hc => h c (List.mem_of_mem_take hc)

theorem IsHex.drop {s : Text} (h : IsHex s) (n : ℕ) : IsHex (s.drop n) :=
  fun c hc => h c (List.mem_of_mem_drop hc)

theorem isHex_replicate_zero (n : ℕ) : IsHex (List.replicate n '0') := by
  intro c hc
  rw [(List.mem_replicate.mp hc).2]
  rfl

end BoingObserver.Js
