import BoingObserver.Payload.Kind
import BoingObserver.Rpc.Hex
import Mathlib.Data.List.Forall2

/-!
# Re-encoded payloads

A node gives a byte string as the array of its bytes, as hex, or as hex with `0x`, in
any letter case of the digits.  Fields of a payload may change their encoding; its
kind does not.

* `hexForLink_eq_of_encodes`: every encoding is read as the same lower-case digits.
* `unwrap_related`, `getTxPayloadKind_eq`: re-encoded payloads are of one kind and have
  related fields.
* `wrapped_mapPayload`: how to re-encode a payload.
-/

namespace BoingObserver.Payload

open Js Rpc

/-! ## Encodings -/

/-- An encoding of some bytes: the array of their numbers, or their hex digits in any letter case,
with `0x` or without. -/
def Encodes (bytes : List ℕ) (v : Value) : Prop :=
  v = .array (bytes.map fun b => .number (.ofNat b)) ∨
    ∃ s, toLowerCase s = bytesToHex bytes ∧ (v = .string s ∨ v = .string ('0' :: 'x' :: s))

section

variable (nt : NumberText)

theorem hexByte_ofNat {b : ℕ} (h : b < 256) : nt.hexByte (.ofNat b) = padHex 2 b := by
  have hsafe : (Number.ofNat b).toSafeNat? = some b := by
    rw [Number.toSafeNat?_ofNat, if_pos (by omega)]
  rw [NumberText.hexByte, NumberText.hex, hsafe, padHex]

theorem asNumbers?_map_ofNat (bytes : List ℕ) :
    Value.asNumbers? (bytes.map fun b => .number (.ofNat b)) = some (bytes.map Number.ofNat) := by
  refine mapM_eq_some_iff.mpr ?_
  rw [List.map_map, List.map_map]
  rfl

theorem flatMap_hexByte {bytes : List ℕ} (h : ∀ b ∈ bytes, b < 256) :
    (bytes.map Number.ofNat).flatMap nt.hexByte = bytesToHex bytes := by
  rw [List.flatMap_map, bytesToHex]
  exact List.flatMap_congr fun b hb => hexByte_ofNat nt (h b hb)

theorem isAnyHexDigit_of_toLowerCase {s : Text} {bytes : List ℕ}
    (h : toLowerCase s = bytesToHex bytes) : ∀ c ∈ s, isAnyHexDigit c = true := by
  intro c hc
  have hmem : lowerChar c ∈ bytesToHex bytes := h ▸ List.mem_map_of_mem hc
  exact isAnyHexDigit_of_lowerChar (isHex_bytesToHex bytes _ hmem)

section

variable {s : Text} {bytes : List ℕ} (hs : toLowerCase s = bytesToHex bytes)
include hs

theorem trim_digits : trim s = s :=
  trim_eq_self fun c hc => isSpace_of_isAnyHexDigit (isAnyHexDigit_of_toLowerCase hs c hc)

theorem trim_prefixed_digits : trim ('0' :: 'x' :: s) = '0' :: 'x' :: s := by
  refine trim_eq_self fun c hc => ?_
  rcases List.mem_cons.mp hc with rfl | hc
  · rfl
  · rcases List.mem_cons.mp hc with rfl | hc
    · rfl
    · exact isSpace_of_isAnyHexDigit (isAnyHexDigit_of_toLowerCase hs c hc)

/-- Digits do not begin with a prefix. -/
theorem not_prefixed_digits {x : Char} (hx : isAnyHexDigit x = false) : s.take 2 ≠ ['0', x] := by
  intro e
  have hmem : x ∈ s.take 2 := by
    rw [e]
    exact List.mem_cons_of_mem _ List.mem_cons_self
  rw [isAnyHexDigit_of_toLowerCase hs x (List.mem_of_mem_take hmem)] at hx
  cases hx

end

/-- **Every encoding is read as the same lower-case digits.** -/
theorem hexForLink_eq_of_encodes {bytes : List ℕ} (hb : ∀ b ∈ bytes, b < 256) {v : Value}
    (h : Encodes bytes v) : hexForLink nt v = bytesToHex bytes := by
  rcases h with rfl | ⟨s, hs, rfl | rfl⟩
  · have hsafe : toSafeHexString nt (.array (bytes.map fun b => .number (.ofNat b))) =
        '0' :: 'x' :: bytesToHex bytes := by
      rw [toSafeHexString, asNumbers?_map_ofNat]
      exact congrArg (fun t => '0' :: 'x' :: t) (flatMap_hexByte nt hb)
    rw [hexForLink, hsafe]
    exact (isHex_bytesToHex bytes).toLowerCase_eq
  · change toLowerCase (if (trim s).take 2 = ['0', 'x'] then (trim s).drop 2 else trim s) = _
    rw [trim_digits hs, if_neg (not_prefixed_digits hs (by decide)), hs]
  · rw [hexForLink, toSafeHexString, trim_prefixed_digits hs]
    exact hs

end

/-! ## Records -/

def Related (R : Text → Value → Value → Prop) (p p' : Fields) : Prop :=
  List.Forall₂ (fun e e' => e.1 = e'.1 ∧ R e.1 e.2 e'.2) p p'

inductive Wrapped (R : Text → Value → Value → Prop) : Value → Value → Prop
  | same (v : Value) : Wrapped R v v
  | flat {p p' : Fields} (h : Related R p p') : Wrapped R (.object p) (.object p')
  | tagged {key : Text} (hkey : resolveTaggedPayloadKind key ≠ none) {p p' : Fields}
      (h : Related R p p') : Wrapped R (.object [(key, .object p)]) (.object [(key, .object p')])

section

variable {R : Text → Value → Value → Prop} {p p' : Fields}

theorem Related.refl (hrefl : ∀ k v, R k v v) (p : Fields) : Related R p p :=
  List.forall₂_same.mpr fun e _ => ⟨rfl, hrefl e.1 e.2⟩

theorem Related.mono {R' : Text → Value → Value → Prop} (hR : ∀ k v w, R k v w → R' k v w)
    (h : Related R p p') : Related R' p p' :=
  h.imp fun _ _ he => ⟨he.1, hR _ _ _ he.2⟩

theorem Related.keys_eq (h : Related R p p') : p.map Prod.fst = p'.map Prod.fst := by
  induction h with
  | nil => rfl
  | cons he _ ih => rw [List.map_cons, List.map_cons, he.1, ih]

theorem Related.get (h : Related R p p') (hrefl : ∀ k v, R k v v) (k : Text) :
    R k (p.get k) (p'.get k) := by
  rw [Fields.get, Fields.get]
  induction h with
  | nil => exact hrefl k .undefined
  | @cons e e' p p' he _ ih =>
    obtain ⟨j, v⟩ := e
    obtain ⟨j', v'⟩ := e'
    obtain ⟨hj, hv⟩ := he
    dsimp only at hj hv
    subst hj
    rw [List.lookup_cons, List.lookup_cons]
    by_cases hk : k = j
    · subst hk
      rw [beq_self_eq_true]
      exact hv
    · rw [beq_false_of_ne hk]
      exact ih

theorem Related.has_eq (h : Related R p p') : p.has = p'.has := by
  funext k
  rw [Fields.has, Fields.has]
  induction h with
  | nil => rfl
  | @cons e e' p p' he _ ih =>
    obtain ⟨j, v⟩ := e
    obtain ⟨j', v'⟩ := e'
    obtain ⟨hj, -⟩ := he
    dsimp only at hj
    subst hj
    rw [List.lookup_cons, List.lookup_cons]
    by_cases hk : k = j
    · subst hk
      rw [beq_self_eq_true]
      rfl
    · rw [beq_false_of_ne hk]
      exact ih

/-- **Re-encoded payloads unwrap to related records under one tag.** -/
theorem unwrap_related (hrefl : ∀ k v, R k v v)
    (htag : ∀ k v w, R k v w → resolveTaggedPayloadKind k ≠ none → v = w) {v w : Value}
    (h : Wrapped R v w) :
    (unwrapTaggedPayload v).2 = (unwrapTaggedPayload w).2 ∧
      Related R (unwrapTaggedPayload v).1 (unwrapTaggedPayload w).1 := by
  cases h with
  | same => exact ⟨rfl, Related.refl hrefl _⟩
  | tagged hkey h =>
    rename_i key p p'
    obtain ⟨kind, hkind⟩ := Option.ne_none_iff_exists'.mp hkey
    simp only [unwrapTaggedPayload, hkind]
    exact ⟨trivial, h⟩
  | flat h =>
    rename_i p p'
    cases h with
    | nil => exact ⟨rfl, .nil⟩
    | cons he hrest =>
      rename_i e e' l l'
      cases hrest with
      | cons he₂ hrest => exact ⟨rfl, .cons he (.cons he₂ hrest)⟩
      | nil =>
        obtain ⟨key, val⟩ := e
        obtain ⟨key', val'⟩ := e'
        obtain ⟨hkey, hval⟩ := he
        dsimp only at hkey hval
        subst hkey
        cases hkind : resolveTaggedPayloadKind key with
        | none =>
          simp only [unwrapTaggedPayload, hkind]
          exact ⟨trivial, .cons ⟨rfl, hval⟩ .nil⟩
        | some kind =>
          obtain rfl := htag _ _ _ hval (by rw [hkind]; exact Option.some_ne_none _)
          exact ⟨rfl, Related.refl hrefl _⟩

end

/-! ## Kinds -/

/-- A relation that leaves alone what the kind of a payload is read from. -/
structure KeepsKind (R : Text → Value → Value → Prop) : Prop where
  refl : ∀ k v, R k v v
  eq_of_tag : ∀ k v w, R k v w → resolveTaggedPayloadKind k ≠ none → v = w
  eq_of_read : ∀ k ∈ (["kind", "grantee", "size"] : List Text), ∀ v w, R k v w → v = w
  isArray : ∀ v w, R "calls" v w → v.asArray?.isSome = w.asArray?.isSome

section

variable {R : Text → Value → Value → Prop} {p p' : Fields} {payload payload' : Value}

/-- **Re-encoded records are of one kind.** -/
theorem getTxPayloadKindFlat_eq (hR : KeepsKind R) (h : Related R p p') :
    getTxPayloadKindFlat p = getTxPayloadKindFlat p' := by
  have hhas := h.has_eq
  have hlen : p.length = p'.length := h.length_eq
  have hkeys : sortedKeys p = sortedKeys p' := by
    rw [sortedKeys, sortedKeys, h.keys_eq]
  have hcalls := hR.isArray _ _ (h.get hR.refl "calls")
  have hread (k : Text) (hk : k ∈ (["kind", "grantee", "size"] : List Text)) :
      p.get k = p'.get k := hR.eq_of_read k hk _ _ (h.get hR.refl k)
  have hkind : p.get "kind" = p'.get "kind" := hread "kind" (by decide)
  have hgrantee : p.get "grantee" = p'.get "grantee" := hread "grantee" (by decide)
  have hsize : p.get "size" = p'.get "size" := hread "size" (by decide)
  have hcall : callKindFlat p = callKindFlat p' := by
    simp only [callKindFlat, hhas, hcalls]
  have hname : nameKindFlat p = nameKindFlat p' := by
    simp only [nameKindFlat, hhas]
  have hstake : stakeKindFlat p = stakeKindFlat p' := by
    simp only [stakeKindFlat, hhas, hlen, hkeys, hkind]
  have hblob : blobKindFlat p = blobKindFlat p' := by
    simp only [blobKindFlat, hhas, hgrantee, hsize]
  simp only [getTxPayloadKindFlat, hcall, hname, hstake, hblob, hkind]

theorem isNullish_eq (h : Wrapped R payload payload') :
    payload.isNullish = payload'.isNullish := by
  cases h with
  | same => rfl
  | flat h => rfl
  | tagged hkey h => rfl

theorem inner_related (hR : KeepsKind R) (h : Wrapped R payload payload') :
    Related R (getTxPayloadInner payload) (getTxPayloadInner payload') :=
  (unwrap_related hR.refl hR.eq_of_tag h).2

/-- **Re-encoded payloads are of one kind.** -/
theorem getTxPayloadKind_eq (hR : KeepsKind R) (h : Wrapped R payload payload') :
    getTxPayloadKind payload = getTxPayloadKind payload' := by
  obtain ⟨htag, hinner⟩ := unwrap_related hR.refl hR.eq_of_tag h
  have hflat := getTxPayloadKindFlat_eq hR hinner
  rw [getTxPayloadKind, getTxPayloadKind, isNullish_eq h]
  split
  · rfl
  · generalize unwrapTaggedPayload payload = u at htag hflat
    generalize unwrapTaggedPayload payload' = u' at htag hflat
    obtain ⟨inner, kind⟩ := u
    obtain ⟨inner', kind'⟩ := u'
    dsimp only at htag hflat
    subst htag
    cases kind with
    | none => exact hflat
    | some kind => rfl

end

/-! ## Re-encoding a payload -/

def mapFields (f : Text → Value → Value) (p : Fields) : Fields := p.map fun e => (e.1, f e.1 e.2)

def mapPayload (f : Text → Value → Value) : Value → Value
  | .object [(key, .object p)] =>
    match resolveTaggedPayloadKind key with
    | none => .object (mapFields f [(key, .object p)])
    | some _ => .object [(key, .object (mapFields f p))]
  | .object p => .object (mapFields f p)
  | v => v

section

variable {R : Text → Value → Value → Prop} {f : Text → Value → Value} {p : Fields}

theorem related_mapFields (hf : ∀ k v, R k v (f k v)) (p : Fields) :
    Related R p (mapFields f p) := by
  rw [Related, mapFields, List.forall₂_map_right_iff]
  exact List.forall₂_same.mpr fun e _ => ⟨rfl, hf e.1 e.2⟩

theorem get_mapFields {k : Text} (hundefined : f k .undefined = .undefined) (p : Fields) :
    (mapFields f p).get k = f k (p.get k) := by
  rw [Fields.get, Fields.get]
  induction p with
  | nil => exact hundefined.symm
  | cons e p ih =>
    rw [mapFields, List.map_cons, List.lookup_cons, List.lookup_cons]
    by_cases hk : k = e.1
    · rw [← hk, beq_self_eq_true]
      rfl
    · rw [beq_false_of_ne hk]
      exact ih

/-- **A payload is related to what a function makes of its fields.** -/
theorem wrapped_mapPayload (hf : ∀ k v, R k v (f k v)) (payload : Value) :
    Wrapped R payload (mapPayload f payload) := by
  unfold mapPayload
  split
  next key p =>
    cases hkey : resolveTaggedPayloadKind key with
    | none => exact .flat (related_mapFields hf _)
    | some kind =>
      exact .tagged (by rw [hkey]; exact Option.some_ne_none _) (related_mapFields hf p)
  next p _ => exact .flat (related_mapFields hf p)
  next => exact .same payload

theorem inner_mapPayload (htag : ∀ k v, resolveTaggedPayloadKind k ≠ none → f k v = v)
    (payload : Value) :
    getTxPayloadInner (mapPayload f payload) = mapFields f (getTxPayloadInner payload) := by
  cases payload with
  | object p =>
    rcases p with - | ⟨⟨key, val⟩, - | ⟨e, rest⟩⟩
    · rfl
    · have hsingle : mapFields f [(key, val)] = [(key, f key val)] := rfl
      cases hkey : resolveTaggedPayloadKind key with
      | none =>
        have hmap : mapPayload f (.object [(key, val)]) = .object [(key, f key val)] := by
          cases val <;> simp only [mapPayload, hkey, hsingle]
        rw [hmap]
        simp only [getTxPayloadInner, unwrapTaggedPayload, hkey, hsingle]
      | some kind =>
        have hval : f key val = val := htag key val (by rw [hkey]; exact Option.some_ne_none _)
        have hnil : mapFields f [] = [] := rfl
        cases val with
        | object q => simp only [mapPayload, getTxPayloadInner, unwrapTaggedPayload, hkey]
        | _ => simp only [mapPayload, getTxPayloadInner, unwrapTaggedPayload, hkey, hsingle, hval,
            hnil]
    · have hmap : mapPayload f (.object ((key, val) :: e :: rest)) =
          .object (mapFields f ((key, val) :: e :: rest)) := by
        cases val <;> rfl
      rw [hmap]
      rfl
  | _ => rfl

end

end BoingObserver.Payload
