import BoingObserver.Contract.Format
import BoingObserver.Js.Decimal
import BoingObserver.NativeUnit.Config

/-!
# Token amounts

`formatTokenAmount` of `tx-decode.ts` with the decimals that `tokenMetaFromRpc` of
`tx-context-rpc.ts` admits.  One admits up to 255 decimals, the other uses up to 36.

* `ungroup_formatTokenAmount`: the text is the exact one for the decimals in use.
* `admitted_cases`: which decimals are admitted.
* `formatTokenAmount_exact_iff`: when the text is exact for the decimals admitted.
-/

namespace BoingObserver.Contract

open Js
open NativeUnit (isObject)

/-! ## Token metadata -/

/-- `typeof v === "string" && v.trim() ? v.trim() : null` -/
def trimmedText (v : Value) : Option Text := nonEmpty (v.asString?.map trim)

def admittedDecimals (v : Value) : Option Number :=
  match v with
  | .number x =>
    match x.toInt? with
    | some z => if 0 ≤ z ∧ z ≤ 255 then some x else none
    | none => none
  | _ => none

/-- A `boing_getTokenMetadata` result as the decoder's `TokenMeta`; none when it carries nothing. -/
def tokenMetaFromRpc (r : Value) : Option TokenMeta :=
  if isObject r then
    let symbol := trimmedText (r.get "symbol")
    let name := trimmedText (r.get "name")
    let decimals := admittedDecimals (r.get "decimals")
    if symbol.isSome || name.isSome || decimals.isSome then some ⟨symbol, name, decimals⟩ else none
  else none

def decimalsOf (decimals : Option Number) : ℕ :=
  match decimals.bind (·.toInt?) with
  | some (.ofNat d) => d
  | _ => 0

/-- The text denotes the amount in units of the token, and its fraction has no zero at its end. -/
def ExactAmount (raw : ℕ) (decimals : Option Number) : Prop :=
  decimalValue (ungroup (formatTokenAmount raw decimals)) =
      some ((raw : ℚ) / 10 ^ decimalsOf decimals) ∧
    (fractionOf (ungroup (formatTokenAmount raw decimals))).getLast? ≠ some '0'

/-! ## The text of an amount -/

theorem ungroup_groupFrom {s : Text} (h : ',' ∉ s) (before : Option Char) :
    ungroup (groupFrom before s) = s := by
  induction s generalizing before with
  | nil => rfl
  | cons c s ih =>
    obtain ⟨hc, hs⟩ := not_or.mp fun hmem => h (List.mem_cons.mpr hmem)
    have hrest : ungroup (c :: groupFrom (some c) s) = c :: s := by
      rw [ungroup, List.filter_cons_of_pos (by simpa using Ne.symm hc), ← ungroup, ih hs]
    rw [groupFrom]
    split
    · exact hrest
    · exact hrest

theorem ungroup_group {s : Text} (h : ∀ c ∈ s, c.isDigit = true) : ungroup (group s) = s :=
  ungroup_groupFrom (comma_not_mem h) none

/-- **Without its commas the text is the exact one** for the decimals in use. -/
theorem ungroup_formatTokenAmount (raw : ℕ) (decimals : Option Number) :
    ungroup (formatTokenAmount raw decimals) = exactText (usableDecimals decimals) raw := by
  rw [formatTokenAmount, intText_natCast, exactText]
  dsimp only
  by_cases hd : usableDecimals decimals = 0
  · rw [if_pos hd, if_pos hd, hd, pow_zero, Nat.div_one]
    exact ungroup_group (isDigits_decimal raw).2
  · rw [if_neg hd, if_neg hd, ← padDecimal, take_padDecimal (Nat.pos_of_ne_zero hd),
      drop_padDecimal (Nat.pos_of_ne_zero hd), List.append_assoc]
    change ungroup (if trimZeros _ = [] then _ else _ ++ '.' :: trimZeros _) = _
    exact ungroup_fixedText (ungroup_group (isDigits_decimal _).2) fun c hc =>
      isDigit_padDecimal (mem_of_mem_trimZeros hc)

/-- **The text is exact** iff the decimals in use are those that are meant, or there is nothing. -/
theorem exactAmount_iff (raw : ℕ) (decimals : Option Number) :
    ExactAmount raw decimals ↔ usableDecimals decimals = decimalsOf decimals ∨ raw = 0 := by
  rw [ExactAmount, ungroup_formatTokenAmount, decimalValue_exactText, Option.some.injEq,
    and_iff_left (getLast?_fractionOf_exactText _ _)]
  by_cases hraw : raw = 0
  · rw [hraw, Nat.cast_zero, zero_div, zero_div]
    exact iff_of_true rfl (Or.inr rfl)
  · have hne : (raw : ℚ) ≠ 0 := Nat.cast_ne_zero.mpr hraw
    rw [or_iff_left hraw]
    constructor
    · intro h
      have hpow : (10 : ℚ) ^ usableDecimals decimals = 10 ^ decimalsOf decimals := by
        rwa [div_eq_mul_inv, div_eq_mul_inv, mul_right_inj' hne, inv_inj] at h
      exact pow_right_injective₀ (by norm_num) (by norm_num) hpow
    · intro h
      rw [h]

/-! ## Admitted decimals -/

theorem admittedDecimals_eq_some {v : Value} {x : Number} (h : admittedDecimals v = some x) :
    ∃ d : ℕ, x.toInt? = some (d : ℤ) ∧ d ≤ 255 := by
  unfold admittedDecimals at h
  split at h
  next y =>
    split at h
    next z hz =>
      obtain ⟨hrange, hx⟩ := Option.ite_none_right_eq_some.mp h
      obtain rfl := Option.some.inj hx
      obtain ⟨d, rfl⟩ := Int.eq_ofNat_of_zero_le hrange.1
      exact ⟨d, hz, Int.ofNat_le.mp hrange.2⟩
    next => cases h
  next => cases h

/-- **The decimals that are admitted**: none, or an integer up to 255. -/
theorem admitted_cases {r : Value} {token : TokenMeta} (h : tokenMetaFromRpc r = some token) :
    token.decimals = none ∨ ∃ x, token.decimals = some x ∧ ∃ d : ℕ, x.toInt? = some (d : ℤ) ∧ d ≤ 255 := by
  rw [tokenMetaFromRpc] at h
  split at h
  next =>
    dsimp only at h
    split at h
    next =>
      obtain rfl := Option.some.inj h
      cases hd : admittedDecimals (r.get "decimals") with
      | none => exact Or.inl rfl
      | some x => exact Or.inr ⟨x, rfl, admittedDecimals_eq_some hd⟩
    next => cases h
  next => cases h

theorem usableDecimals_eq_iff {x : Number} {d : ℕ} (h : x.toInt? = some (d : ℤ)) :
    usableDecimals (some x) = decimalsOf (some x) ↔ d ≤ 36 := by
  rw [usableDecimals, decimalsOf, Option.bind_some, h]
  change (if 0 < d ∧ d ≤ 36 then d else 0) = d ↔ d ≤ 36
  split
  next hd => exact iff_of_true rfl hd.2
  next hd => omega

/-- **An amount is exact** in the decimals that the node's answer admits iff these are at most 36,
or the amount is zero. -/
theorem formatTokenAmount_exact_iff (raw : ℕ) {r : Value} {token : TokenMeta}
    (h : tokenMetaFromRpc r = some token) :
    ExactAmount raw token.decimals ↔ decimalsOf token.decimals ≤ 36 ∨ raw = 0 := by
  rw [exactAmount_iff]
  rcases admitted_cases h with hnone | ⟨x, hx, d, hd, -⟩
  · rw [hnone]
    exact iff_of_true (Or.inl rfl) (Or.inl (Nat.zero_le 36))
  · have hof : decimalsOf (some x) = d := by
      rw [decimalsOf, Option.bind_some, hd]
    rw [hx, usableDecimals_eq_iff hd, hof]

/-! ## A token with 40 decimals -/

def fortyDecimals : Value := .object [("decimals", .number (.ofNat 40))]

theorem tokenMetaFromRpc_forty :
    tokenMetaFromRpc fortyDecimals = some ⟨none, none, some (.ofNat 40)⟩ := by rfl

theorem formatTokenAmount_exact_forty :
    ExactAmount 5 (some (.ofNat 40)) ↔ decimalsOf (some (.ofNat 40)) ≤ 36 ∨ 5 = 0 :=
  formatTokenAmount_exact_iff 5 tokenMetaFromRpc_forty

/-- **Five units of `10 ^ -40` are shown as 5.** -/
theorem fortyDecimals_not_exact : (∃ token, tokenMetaFromRpc fortyDecimals = some token ∧
    token.decimals = some (.ofNat 40)) ∧ formatTokenAmount 5 (some (.ofNat 40)) = "5" ∧
      ¬ ExactAmount 5 (some (.ofNat 40)) := by
  refine ⟨⟨_, tokenMetaFromRpc_forty, rfl⟩, by decide +kernel, ?_⟩
  rw [exactAmount_iff]
  decide +kernel

end BoingObserver.Contract
