import BoingObserver.Contract.Decode
import Mathlib.Data.List.Pairwise

/-!
# Decoding undoes encoding

`contract-call-encode.ts` and `tx-decode.ts` share nothing but the tables of
`contract-interfaces.ts`.  `decode_encode` joins them: what a call form encodes
for a write function of a table is decoded to that function, with the words the
form wrote and the values its texts denote.

* `Denotes.unique`: a text denotes at most one integer.
* `encodeParams_eq_ok`: an encoding has one word per parameter, in order.
* `find_calls_eq`: the table search finds the function the words were built for.
-/

namespace BoingObserver.Contract

open Js

/-! ## The integer a text denotes -/

theorem digits_ne_hex {s : Text} (h : ∀ c ∈ s, c.isDigit) (ds : Text) : s ≠ '0' :: 'x' :: ds := by
  rintro rfl
  exact absurd (h 'x' (by simp)) (by decide)

/-- **A text denotes at most one integer.** -/
theorem Denotes.unique {raw : Text} {m n : ℕ} (hm : Denotes raw m) (hn : Denotes raw n) :
    m = n := by
  have hword : ∀ s : Text, (s = "true" ∨ s = "false") → (∀ c ∈ s, c.isDigit) → False := by
    rintro s (rfl | rfl) h
    · exact absurd (h 't' (by decide)) (by decide)
    · exact absurd (h 'f' (by decide)) (by decide)
  cases hm with
  | true h =>
    cases hn with
    | true => rfl
    | false h' => exact absurd (h.symm.trans h') (by decide)
    | hex h' => exact absurd (h.symm.trans h') (by simp)
    | decimal _ hd => exact (hword _ (Or.inl h) hd).elim
  | false h =>
    cases hn with
    | true h' => exact absurd (h.symm.trans h') (by decide)
    | false => rfl
    | hex h' => exact absurd (h.symm.trans h') (by simp)
    | decimal _ hd => exact (hword _ (Or.inr h) hd).elim
  | hex h =>
    cases hn with
    | true h' => exact absurd (h.symm.trans h') (by simp)
    | false h' => exact absurd (h.symm.trans h') (by simp)
    | hex h' =>
      obtain ⟨-, -, rfl⟩ : '0' = '0' ∧ 'x' = 'x' ∧ _ = _ := by simpa using h.symm.trans h'
      rfl
    | decimal _ hd => exact absurd h (digits_ne_hex hd _)
  | decimal _ hd =>
    cases hn with
    | true h' => exact (hword _ (Or.inl h') hd).elim
    | false h' => exact (hword _ (Or.inr h') hd).elim
    | hex h' => exact absurd h' (digits_ne_hex hd _)
    | decimal => rfl

/-! ## One parameter -/

/-- The argument a parameter decodes to when `raw` was typed into its field. -/
structure ArgOf (p : AbiParam) (raw : Text) (a : DecodedArg) : Prop where
  name : a.name = p.name
  type : a.type = p.type
  word : encodeParamWord p raw = .ok a.word
  value : p.type.isNumeric = true → ∃ n : ℕ, Denotes raw n ∧ a.value = some (n : ℤ)
  account : p.type = .account → a.account = some (toLowerCase (strip0x (trim raw)))

theorem isWord_encodeParamWord {p : AbiParam} {raw w : Text}
    (h : encodeParamWord p raw = .ok w) : IsWord w := by
  have hint : ∀ bits ≤ 128, intWord raw bits = .ok w → IsWord w := by
    intro bits hb e
    obtain ⟨n, -, hn, rfl⟩ := intWord_eq_ok e
    exact isWord_wordOf (lt_of_lt_of_le hn (Nat.pow_le_pow_right (by omega) (by omega)))
  rw [encodeParamWord] at h
  cases hp : p.type <;> rw [hp] at h
  case account => exact (hexWord_eq_ok h).1
  case bytes32 => exact (hexWord_eq_ok h).1
  all_goals exact hint _ (by omega) h

theorem encodeParamWord_numeric {p : AbiParam} {raw w : Text} (hp : p.type.isNumeric = true)
    (h : encodeParamWord p raw = .ok w) :
    ∃ n, Denotes raw n ∧ n < 2 ^ 128 ∧ w = wordOf n := by
  have hint : ∀ bits ≤ 128, intWord raw bits = .ok w →
      ∃ n, Denotes raw n ∧ n < 2 ^ 128 ∧ w = wordOf n := by
    intro bits hb e
    obtain ⟨n, hd, hn, hw⟩ := intWord_eq_ok e
    exact ⟨n, hd, lt_of_lt_of_le hn (Nat.pow_le_pow_right (by omega) hb), hw⟩
  rw [encodeParamWord] at h
  cases ht : p.type <;> rw [ht] at h hp
  case account => cases hp
  case bytes32 => cases hp
  all_goals exact hint _ (by omega) h

theorem argOf_argFrom {p : AbiParam} {raw w : Text} (h : encodeParamWord p raw = .ok w) :
    ArgOf p raw (argFrom p.name p.type w) where
  name := rfl
  type := rfl
  word := h
  value hp := by
    obtain ⟨n, hd, hn, rfl⟩ := encodeParamWord_numeric hp h
    have hu := wordU128_of_lt (isWord_wordOf (lt_of_lt_of_le hn (by norm_num)))
      (by rw [wordValue_wordOf]; exact hn)
    rw [wordValue_wordOf] at hu
    exact ⟨n, hd, by simp [argFrom, hp, hu]⟩
  account hp := by
    rw [encodeParamWord, hp] at h
    rw [← (hexWord_eq_ok h).2]
    exact if_pos hp

/-! ## The parameter list -/

/-- **An encoding has one word per parameter, in order**; missing texts read as empty. -/
theorem encodeParams_eq_ok : ∀ {ps : List AbiParam} {values ws : List Text},
    encodeParams ps values = .ok ws → ws.length = ps.length ∧
      ∀ i p w, ps[i]? = some p → ws[i]? = some w →
        encodeParamWord p (values.getD i []) = .ok w
  | [], _, ws, h => by
    obtain rfl : [] = ws := Except.ok.inj h
    exact ⟨rfl, fun i p w hp => by simp at hp⟩
  | p :: ps, values, ws, h => by
    rw [encodeParams] at h
    cases hw : encodeParamWord p (values.headD []) with
    | error e => rw [hw] at h; cases h
    | ok w =>
      cases hws : encodeParams ps values.tail with
      | error e => rw [hw, hws] at h; cases h
      | ok vs =>
        rw [hw, hws] at h
        obtain rfl : w :: vs = ws := Except.ok.inj h
        obtain ⟨hlen, hrec⟩ := encodeParams_eq_ok hws
        refine ⟨by simp [hlen], fun i q v hq hv => ?_⟩
        cases i with
        | zero =>
          obtain rfl : p = q := by simpa using hq
          obtain rfl : w = v := by simpa using hv
          cases values <;> exact hw
        | succ i =>
          have := hrec i q v (by simpa using hq) (by simpa using hv)
          cases values <;> simpa using this

theorem encodeContractCall_eq_ok {sel : ℕ} {params : List AbiParam} {values : List Text}
    {data : Text} (h : encodeContractCall sel params values = .ok data) :
    ∃ ws, encodeParams params values = .ok ws ∧
      data = '0' :: 'x' :: (wordOf sel :: ws).flatten := by
  rw [encodeContractCall] at h
  cases hws : encodeParams params values with
  | error e => rw [hws] at h; cases h
  | ok ws =>
    rw [hws] at h
    exact ⟨ws, rfl, (Except.ok.inj h).symm⟩

/-! ## The table search -/

/-- **The search finds the function the words were built for.** -/
theorem find_calls_eq {e : Text × ContractInterface} (he : e ∈ contractInterfaces)
    {f : ContractFunction} (hf : f ∈ e.2.functions) {words : List Text}
    (hc : calls words f = true) : e.2.functions.find? (calls words) = some f := by
  obtain ⟨g, hg⟩ := Option.isSome_iff_exists.mp (List.find?_isSome.mpr ⟨f, hf, hc⟩)
  have hgc := List.find?_some hg
  have hgm := List.mem_of_find?_eq_some hg
  simp only [calls, decide_eq_true_eq] at hc hgc
  rw [hg]
  by_contra hne
  have hne' : f ≠ g := fun e => hne (e ▸ rfl)
  have hsym : Std.Symm Distinct := ⟨fun f g h hs => h ⟨hs.1.symm, hs.2.symm⟩⟩
  refine (writes_distinct e he).forall (List.mem_filter.mpr ⟨hf, ?_⟩)
    (List.mem_filter.mpr ⟨hgm, ?_⟩) hne' ⟨?_, ?_⟩
  · exact decide_eq_true hc.2.2
  · exact decide_eq_true hgc.2.2
  · exact Option.some.inj (hc.1.symm.trans hgc.1)
  · have := hc.2.1.trans hgc.2.1.symm
    omega

/-- Decoding with a table of `contractInterfaces`, on words built for one of its functions. -/
theorem decodeContractCall_table {id : Text} {iface : ContractInterface}
    (hid : contractInterfaces.lookup id = some iface) (hcr : id ≠ "custody-router")
    (hlr : id ≠ "ledger-router") {f : ContractFunction} (hf : f ∈ iface.functions)
    (hw : f.kind = .write) {ws : List Text} (hws : ∀ w ∈ ws, IsWord w)
    (hlen : ws.length = f.params.length) (contract : Text) (isPool : Bool) :
    decodeContractCall ⟨contract, .string ('0' :: 'x' :: (wordOf f.selector :: ws).flatten),
        some id, isPool⟩ =
      .ok (some (TableCall id (toLowerCase (strip0x contract)) f (wordOf f.selector :: ws))) := by
  have he := mem_of_lookup_eq_some hid
  have hsel := selector_lt _ he f hf
  have hwords : ∀ w ∈ wordOf f.selector :: ws, IsWord w := by
    intro w h
    rcases List.mem_cons.mp h with rfl | h
    · exact isWord_wordOf (by omega)
    · exact hws w h
  have hs := selectorOf_wordOf hsel ws
  have hcalls : calls (wordOf f.selector :: ws) f = true := by
    simp [calls, hs, hlen, hw]
  have hcand : ∀ data, CallInput.candidates ⟨contract, data, some id, isPool⟩ = [id] := by
    intro data
    cases id with
    | nil => cases hid
    | cons c id => rfl
  rw [decodeContractCall, decodeWith, calldataWords_flatten (by simp) hwords]
  simp only [hs, hcand, tryCandidates_singleton]
  rw [decodeAs, if_neg hcr, if_neg hlr, recordGet_eq_own.mpr hid]
  simp only [decodeWithFunctions, find_calls_eq he hf hcalls]
  rfl

/-- **Decode undoes encode**: for every table but the two routers', every write function and all
texts the encoder accepts. -/
theorem decode_encode {id : Text} {iface : ContractInterface}
    (hid : contractInterfaces.lookup id = some iface) (hcr : id ≠ "custody-router")
    (hlr : id ≠ "ledger-router") {f : ContractFunction} (hf : f ∈ iface.functions)
    (hw : f.kind = .write) {values : List Text} {data : Text}
    (he : encodeContractCall f.selector f.params values = .ok data) (contract : Text)
    (isPool : Bool) :
    ∃ call, decodeContractCall ⟨contract, .string data, some id, isPool⟩ = .ok (some call) ∧
      call.fn = ⟨f.selector, f.name⟩ ∧ call.args.length = f.params.length ∧
      ∀ i p a, f.params[i]? = some p → call.args[i]? = some a → ArgOf p (values.getD i []) a := by
  obtain ⟨ws, hws, rfl⟩ := encodeContractCall_eq_ok he
  obtain ⟨hlen, hparam⟩ := encodeParams_eq_ok hws
  have hword : ∀ w ∈ ws, IsWord w := by
    intro w h
    obtain ⟨i, hi, rfl⟩ := List.getElem_of_mem h
    exact isWord_encodeParamWord (hparam i _ _ (List.getElem?_eq_getElem (hlen ▸ hi))
      (List.getElem?_eq_getElem hi))
  refine ⟨_, decodeContractCall_table hid hcr hlr hf hw hword hlen contract isPool, rfl, ?_, ?_⟩
  · simp [TableCall, argsFrom, hlen]
  · intro i p a hp ha
    obtain ⟨q, w, hq, hwi, rfl⟩ : ∃ q w, f.params[i]? = some q ∧ ws[i]? = some w ∧
        argFrom q.name q.type w = a := by
      simpa [TableCall, argsFrom, List.getElem?_zipWith_eq_some] using ha
    obtain rfl : p = q := Option.some.inj (hp.symm.trans hq)
    exact argOf_argFrom (hparam i p w hp hwi)

/-- The law at an approval typed in mixed spellings. -/
theorem decode_encode_approve :
    ∃ call, decodeContractCall ⟨"0xAB", .string ("0x" ++ wordOf 8 ++ (wordOf 171 ++ wordOf 255)),
        some "fungible-v2", false⟩ = .ok (some call) ∧
      call.fn = ⟨8, "approve"⟩ ∧ call.args.length = 2 ∧
      ∀ i p a, [acct "spender", u128 "amount"][i]? = some p → call.args[i]? = some a →
        ArgOf p ([("0X" : Text) ++ wordOf 171, " 0xFF "].getD i []) a :=
  decode_encode
    (show contractInterfaces.lookup ("fungible-v2" : Text) = some fungibleV2Interface from rfl)
    (by decide) (by decide)
    (List.mem_append_right fungibleV1 List.mem_cons_self) rfl rfl _ _

end BoingObserver.Contract
