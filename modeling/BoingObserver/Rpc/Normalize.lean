import BoingObserver.Js.Map
import BoingObserver.NativeUnit.Config

/-!
# Blocks as they are read

`normalizeBlock` and `txPriorityTip` of `block-normalize.ts`, with `parseTipU128` of
`priority-tips.ts`.  A block of the node may carry its tips beside its transactions;
the two lists need not be of one length, and an entry need not be a tip.

* `positiveTip_tipText`: what is written for a tip is read as that tip.
* `normalizeBlock_eq_self_of_aligned`: a block that is aligned is left alone.
* `normalizeBlock_keepsTips`: normalising is idempotent, aligns the tips, touches
  nothing else but a `transactions` that is no array, and moves no tip.
-/

namespace BoingObserver.Rpc

open Js NativeUnit

/-! ## Tips -/

/-- Parse one u128 tip: a safe integer, or up to 39 decimal digits. -/
def parseTipU128 (raw : Value) : Option ℕ :=
  match raw with
  | .number x => x.toSafeNat?
  | .string s => digits? (some 39) s
  | _ => none

def positiveTip (raw : Value) : Option ℕ := (parseTipU128 raw).filter (0 < ·)

def tipText : Option ℕ → Text
  | some tip => decimal tip
  | none => "0"

/-- The tips of the first `txCount` transactions. -/
def tipsFound (tips : List Value) (txCount : ℕ) : List (Option ℕ) :=
  (List.range txCount).map fun i => tips[i]?.bind positiveTip

/-- `undefined` when nobody tipped, or one text per transaction. -/
def normalizePriorityTips (tips : Value) (txCount : ℕ) : Option (List Text) :=
  match tips with
  | .array [] => none
  | .array tips =>
    if (tipsFound tips txCount).any Option.isSome then some ((tipsFound tips txCount).map tipText)
    else none
  | _ => none

/-! ## Blocks -/

/-- The own fields of what `typeof` calls an object; those of an array are its items. -/
def ownFields : Value → Option (List (Text × Value))
  | .object fields => some fields
  | .array items => some (items.zipIdx.map fun p => (decimal p.2, p.1))
  | _ => none

def txCount (block : Value) : ℕ := ((block.get "transactions").asArray?.getD []).length

def sameTips (raw : Value) : Option (List Text) → Bool
  | none =>
    match raw with
    | .undefined => true
    | _ => false
  | some tips => raw.asArray?.bind (fun items => items.mapM Value.asString?) = some tips

/-- `delete r[k]` -/
def deleteField (k : Text) (fields : List (Text × Value)) : List (Text × Value) :=
  fields.filter fun p => p.1 ≠ k

/-- The fields of a block with `transactions` an array and `priority_tips` as given. -/
def alignedFields (fields : List (Text × Value)) (txs : List Value) :
    Option (List Text) → List (Text × Value)
  | none => deleteField "priority_tips" (Map.setEntries "transactions" (.array txs) fields)
  | some tips =>
    Map.setEntries "priority_tips" (.array (tips.map .string))
      (Map.setEntries "transactions" (.array txs) fields)

/-- The block with a `transactions` array and aligned (or absent) `priority_tips`; the block
itself when it has them already. -/
def normalizeBlock (block : Value) : Value :=
  match ownFields block with
  | none => .null
  | some fields =>
    let txs := (block.get "transactions").asArray?
    let tips := normalizePriorityTips (block.get "priority_tips") (txCount block)
    if txs.isSome ∧ sameTips (block.get "priority_tips") tips then block
    else .object (alignedFields fields (txs.getD []) tips)

def blockTip (block : Value) (index : Number) : Option ℕ :=
  match block.get "priority_tips", index.toInt? with
  | .array tips, some (.ofNat i) => tips[i]?.bind positiveTip
  | _, _ => none

/-- Tip of one transaction: the block's entry, else the transaction's own. -/
def txPriorityTip (block : Value) (index : Number) (tx : Value) : Option ℕ :=
  match blockTip block index with
  | some tip => some tip
  | none => positiveTip (tx.get "priority_tip")

def IndexBelow (n : ℕ) : Number → Prop
  | .finite q => q < n
  | .nan => False
  | .infinite negative => negative

/-! ## Reading what was written -/

theorem parseTipU128_lt {raw : Value} {tip : ℕ} (h : parseTipU128 raw = some tip) :
    tip < 10 ^ 39 := by
  unfold parseTipU128 at h
  split at h
  next x =>
    rw [Number.toSafeNat?] at h
    split at h
    next n _ =>
      split at h
      next hn =>
        obtain rfl := Option.some.inj h
        omega
      next => cases h
    next => cases h
  next s =>
    rw [digits?] at h
    split at h
    next hs =>
      obtain rfl := Option.some.inj h
      have hlen : s.length ≤ 39 := hs.2 39 rfl
      exact (numeral_lt_ten_pow hs.1.2).trans_le (Nat.pow_le_pow_right (by omega) hlen)
    next => cases h
  next => cases h

theorem parseTipU128_decimal {n : ℕ} (h : n < 10 ^ 39) :
    parseTipU128 (.string (decimal n)) = some n := by
  have hlen : (decimal n).length ≤ 39 := (Nat.length_toDigits_le_iff (by omega) (by omega)).mpr h
  have hlimit : ∀ k ∈ some 39, (decimal n).length ≤ k := by
    rintro k ⟨⟩
    exact hlen
  rw [parseTipU128, digits?, if_pos ⟨isDigits_decimal n, hlimit⟩, numeral_decimal]

/-- **What is written for an entry is read as the same tip.** -/
theorem positiveTip_tipText (raw : Value) :
    positiveTip (.string (tipText (positiveTip raw))) = positiveTip raw := by
  cases h : positiveTip raw with
  | none => decide
  | some tip =>
    obtain ⟨hparse, hpos⟩ := Option.filter_eq_some_iff.mp h
    rw [tipText, positiveTip, parseTipU128_decimal (parseTipU128_lt hparse), Option.filter_some,
      if_pos hpos]

theorem positiveTip_tipText_bind (raw : Option Value) :
    positiveTip (.string (tipText (raw.bind positiveTip))) = raw.bind positiveTip := by
  cases raw with
  | none => decide
  | some raw => exact positiveTip_tipText raw

/-! ## Aligned tips -/

theorem length_tipsFound (tips : List Value) (n : ℕ) : (tipsFound tips n).length = n := by
  rw [tipsFound, List.length_map, List.length_range]

theorem getElem?_tipsFound (tips : List Value) {n i : ℕ} (hi : i < n) :
    (tipsFound tips n)[i]? = some (tips[i]?.bind positiveTip) := by
  rw [tipsFound, List.getElem?_map, List.getElem?_range hi]
  rfl

theorem tipsFound_nil_any (n : ℕ) : (tipsFound [] n).any Option.isSome = false := by
  rw [List.any_eq_false]
  intro found hmem
  obtain ⟨i, -, rfl⟩ := List.mem_map.mp hmem
  simp

def writtenTips (tips : List Value) (n : ℕ) : List Text := (tipsFound tips n).map tipText

theorem getElem?_writtenTips (tips : List Value) {n i : ℕ} (hi : i < n) :
    (writtenTips tips n)[i]? = some (tipText (tips[i]?.bind positiveTip)) := by
  rw [writtenTips, List.getElem?_map, getElem?_tipsFound tips hi]
  rfl

theorem normalizePriorityTips_eq_some_iff {tips : Value} {n : ℕ} {out : List Text} :
    normalizePriorityTips tips n = some out ↔
      ∃ items, tips = .array items ∧ (tipsFound items n).any Option.isSome = true ∧
        out = writtenTips items n := by
  unfold normalizePriorityTips
  split
  · refine iff_of_false (fun h => by cases h) ?_
    rintro ⟨items, heq, hany, -⟩
    obtain rfl := Value.array.inj heq
    rw [tipsFound_nil_any] at hany
    cases hany
  next items _ =>
    split
    next hany =>
      constructor
      · intro h
        exact ⟨items, rfl, hany, (Option.some.inj h).symm⟩
      · rintro ⟨items', heq, -, rfl⟩
        rw [Value.array.inj heq, writtenTips]
    next hnone =>
      refine iff_of_false (fun h => by cases h) ?_
      rintro ⟨items', heq, hany, -⟩
      rw [Value.array.inj heq] at hnone
      exact hnone hany
  next hnot =>
    refine iff_of_false (fun h => by cases h) ?_
    rintro ⟨items, rfl, -⟩
    exact hnot items rfl

theorem length_normalizePriorityTips {tips : Value} {n : ℕ} {out : List Text}
    (h : normalizePriorityTips tips n = some out) : out.length = n := by
  obtain ⟨items, -, -, rfl⟩ := normalizePriorityTips_eq_some_iff.mp h
  rw [writtenTips, List.length_map, length_tipsFound]

theorem bind_positiveTip_of_eq_none {items : List Value} {n i : ℕ}
    (h : normalizePriorityTips (.array items) n = none) (hi : i < n) :
    items[i]?.bind positiveTip = none := by
  have hany : ¬ (tipsFound items n).any Option.isSome = true := by
    intro hany
    have hsome := normalizePriorityTips_eq_some_iff.mpr ⟨items, rfl, hany, rfl⟩
    rw [h] at hsome
    cases hsome
  rw [List.any_eq_true, not_exists] at hany
  have hmem := List.mem_of_getElem? (getElem?_tipsFound items hi)
  have hnot : ¬ (items[i]?.bind positiveTip).isSome = true := fun h => hany _ ⟨hmem, h⟩
  rwa [Bool.not_eq_true, Option.isSome_eq_false_iff, Option.isNone_iff_eq_none] at hnot

theorem tipsFound_writtenTips (items : List Value) (n : ℕ) :
    tipsFound ((writtenTips items n).map .string) n = tipsFound items n := by
  refine List.map_congr_left fun i hi => ?_
  rw [List.getElem?_map, getElem?_writtenTips items (List.mem_range.mp hi)]
  exact positiveTip_tipText_bind _

/-- **Aligned tips are what they are aligned to.** -/
theorem normalizePriorityTips_again {tips : Value} {n : ℕ} {out : List Text}
    (h : normalizePriorityTips tips n = some out) :
    normalizePriorityTips (.array (out.map .string)) n = some out := by
  obtain ⟨items, -, hany, rfl⟩ := normalizePriorityTips_eq_some_iff.mp h
  refine normalizePriorityTips_eq_some_iff.mpr ⟨_, rfl, ?_, ?_⟩
  · rw [tipsFound_writtenTips]
    exact hany
  · exact (congrArg (List.map tipText) (tipsFound_writtenTips items n)).symm

/-! ## Rewritten fields -/

theorem lookup_setField (k k' : Text) (v : Value) (fields : List (Text × Value)) :
    (Map.setEntries k v fields).lookup k' = if k' = k then some v else fields.lookup k' := by
  rw [← Map.lookup_eq_lookup, Map.lookup_setEntries, Map.lookup_eq_lookup]

theorem lookup_deleteField (k k' : Text) (fields : List (Text × Value)) :
    (deleteField k fields).lookup k' = if k' = k then none else fields.lookup k' := by
  induction fields with
  | nil => exact (ite_self none).symm
  | cons p fields ih =>
    obtain ⟨j, v⟩ := p
    rw [deleteField] at ih ⊢
    by_cases hj : j = k
    · rw [List.filter_cons_of_neg (by simp [hj]), ih, List.lookup_cons]
      by_cases hk : k' = k
      · rw [if_pos hk, if_pos hk]
      · rw [if_neg hk, if_neg hk, beq_false_of_ne fun h => hk (h.trans hj)]
    · rw [List.filter_cons_of_pos (by simp [hj]), List.lookup_cons, List.lookup_cons, ih]
      by_cases hk : k' = j
      · subst hk
        simp [hj]
      · rw [beq_false_of_ne hk]

theorem lookup_alignedFields (fields : List (Text × Value)) (txs : List Value)
    (tips : Option (List Text)) (k : Text) :
    (alignedFields fields txs tips).lookup k =
      if k = "priority_tips" then tips.map fun tips => .array (tips.map .string)
      else if k = "transactions" then some (.array txs) else fields.lookup k := by
  cases tips with
  | none => rw [alignedFields, lookup_deleteField, lookup_setField, Option.map_none]
  | some tips => rw [alignedFields, lookup_setField, lookup_setField, Option.map_some]

/-! ## Normalising -/

theorem ownFields_isSome_of_get {block v : Value} {k : Text} (h : block.get k = v)
    (hv : v ≠ .undefined) : (ownFields block).isSome = true := by
  cases block with
  | object fields => rfl
  | array items => rfl
  | _ => exact absurd h.symm hv

/-- A block with a `transactions` array and aligned tips. -/
def Aligned (block : Value) : Prop :=
  ∃ txs, block.get "transactions" = .array txs ∧
    sameTips (block.get "priority_tips")
      (normalizePriorityTips (block.get "priority_tips") txs.length) = true

theorem txCount_eq {block : Value} {txs : List Value}
    (h : block.get "transactions" = .array txs) : txCount block = txs.length := by
  rw [txCount, h]
  rfl

/-- **A block that is aligned is left alone.** -/
theorem normalizeBlock_eq_self_of_aligned {block : Value} (h : Aligned block) :
    normalizeBlock block = block := by
  obtain ⟨txs, htxs, hsame⟩ := h
  obtain ⟨fields, hfields⟩ := Option.isSome_iff_exists.mp
    (ownFields_isSome_of_get htxs fun h => by cases h)
  rw [normalizeBlock, hfields]
  refine if_pos ⟨?_, ?_⟩
  · rw [htxs]
    rfl
  · rwa [txCount_eq htxs]

theorem normalizeBlock_cases {raw : Value} {fields : List (Text × Value)}
    (h : ownFields raw = some fields) :
    (normalizeBlock raw = raw ∧ Aligned raw) ∨
      normalizeBlock raw =
        .object (alignedFields fields ((raw.get "transactions").asArray?.getD [])
          (normalizePriorityTips (raw.get "priority_tips") (txCount raw))) := by
  rw [normalizeBlock, h]
  by_cases hsame : (raw.get "transactions").asArray?.isSome = true ∧
      sameTips (raw.get "priority_tips")
        (normalizePriorityTips (raw.get "priority_tips") (txCount raw)) = true
  · refine Or.inl ⟨if_pos hsame, ?_⟩
    obtain ⟨txs, htxs⟩ := Option.isSome_iff_exists.mp hsame.1
    have hget : raw.get "transactions" = .array txs := by
      cases hv : raw.get "transactions" with
      | array items =>
        rw [hv] at htxs
        exact congrArg Value.array (Option.some.inj htxs)
      | _ => rw [hv] at htxs; cases htxs
    refine ⟨txs, hget, ?_⟩
    rw [← txCount_eq hget]
    exact hsame.2
  · exact Or.inr (if_neg hsame)

section

variable (fields : List (Text × Value)) (txs : List Value) (tips : Option (List Text))

theorem get_transactions_alignedFields :
    (Value.object (alignedFields fields txs tips)).get "transactions" = .array txs := by
  rw [Value.get, lookup_alignedFields, if_neg (by decide), if_pos rfl]
  rfl

theorem get_priorityTips_alignedFields :
    (Value.object (alignedFields fields txs tips)).get "priority_tips" =
      (tips.map fun tips => Value.array (tips.map .string)).getD .undefined := by
  rw [Value.get, lookup_alignedFields, if_pos rfl]

end

theorem sameTips_strings (tips : List Text) :
    sameTips (.array (tips.map .string)) (some tips) = true := by
  rw [sameTips, decide_eq_true_eq]
  refine mapM_eq_some_iff.mpr ?_
  rw [List.map_map]
  rfl

theorem eq_map_string {items : List Value} {tips : List Text}
    (h : items.map Value.asString? = tips.map some) : items = tips.map .string := by
  induction items generalizing tips with
  | nil =>
    cases tips with
    | nil => rfl
    | cons t tips => cases h
  | cons item items ih =>
    cases tips with
    | nil => cases h
    | cons t tips =>
      obtain ⟨hitem, hrest⟩ := List.cons.inj h
      rw [ih hrest]
      cases item with
      | string s =>
        rw [Option.some.inj hitem]
        rfl
      | _ => cases hitem

theorem aligned_alignedFields (fields : List (Text × Value)) (txs : List Value) (tips : Value) :
    Aligned (.object (alignedFields fields txs (normalizePriorityTips tips txs.length))) := by
  refine ⟨txs, get_transactions_alignedFields .., ?_⟩
  rw [get_priorityTips_alignedFields]
  cases h : normalizePriorityTips tips txs.length with
  | none => rfl
  | some out =>
    change sameTips (.array (out.map .string))
      (normalizePriorityTips (.array (out.map .string)) txs.length) = true
    rw [normalizePriorityTips_again h]
    exact sameTips_strings out

theorem aligned_normalizeBlock {raw : Value} {fields : List (Text × Value)}
    (h : ownFields raw = some fields) : Aligned (normalizeBlock raw) := by
  rcases normalizeBlock_cases h with ⟨heq, haligned⟩ | heq
  · rwa [heq]
  · rw [heq, txCount]
    exact aligned_alignedFields ..

theorem normalizeBlock_of_ownFields_eq_none {raw : Value} (h : ownFields raw = none) :
    normalizeBlock raw = .null := by
  rw [normalizeBlock, h]

/-- **Normalising twice is normalising once.** -/
theorem normalizeBlock_normalizeBlock (raw : Value) :
    normalizeBlock (normalizeBlock raw) = normalizeBlock raw := by
  cases h : ownFields raw with
  | none =>
    rw [normalizeBlock_of_ownFields_eq_none h]
    rfl
  | some fields => exact normalizeBlock_eq_self_of_aligned (aligned_normalizeBlock h)

theorem Aligned.tips {block : Value} (h : Aligned block) :
    block.get "priority_tips" = .undefined ∨
      ∃ tips : List Text, block.get "priority_tips" = .array (tips.map .string) ∧
        tips.length = txCount block := by
  obtain ⟨txs, htxs, hsame⟩ := h
  rw [txCount_eq htxs]
  cases htips : normalizePriorityTips (block.get "priority_tips") txs.length with
  | none =>
    rw [htips] at hsame
    refine Or.inl ?_
    cases hv : block.get "priority_tips" with
    | undefined => rfl
    | _ => rw [hv] at hsame; cases hsame
  | some out =>
    rw [htips, sameTips, decide_eq_true_eq] at hsame
    refine Or.inr ⟨out, ?_, length_normalizePriorityTips htips⟩
    obtain ⟨items, hv, -, -⟩ := normalizePriorityTips_eq_some_iff.mp htips
    rw [hv] at hsame ⊢
    exact congrArg Value.array (eq_map_string (mapM_eq_some_iff.mp hsame))

/-! ## The tip of a transaction -/

theorem txCount_alignedFields (fields : List (Text × Value)) (txs : List Value)
    (tips : Option (List Text)) : txCount (.object (alignedFields fields txs tips)) = txs.length :=
  txCount_eq (get_transactions_alignedFields fields txs tips)

theorem txCount_normalizeBlock (raw : Value) : txCount (normalizeBlock raw) = txCount raw := by
  cases h : ownFields raw with
  | none =>
    rw [normalizeBlock_of_ownFields_eq_none h]
    cases raw with
    | object fields => cases h
    | array items => cases h
    | _ => rfl
  | some fields =>
    rcases normalizeBlock_cases h with ⟨heq, -⟩ | heq
    · rw [heq]
    · rw [heq, txCount_alignedFields, txCount]

/-- What an index says: the place of a transaction, if it is one. -/
theorem lt_of_indexBelow {n i : ℕ} {index : Number} (h : IndexBelow n index)
    (hi : index.toInt? = some (.ofNat i)) : i < n := by
  cases index with
  | nan => exact h.elim
  | infinite negative => cases hi
  | finite q =>
    rw [Number.toInt?] at hi
    split at hi
    next hden =>
      have hq : q = ((i : ℤ) : ℚ) := by
        rw [← Rat.num_div_den q, hden, Option.some.inj hi]
        simp
      have hlt : q < n := h
      rw [hq] at hlt
      exact_mod_cast hlt
    next => cases hi

/-- **Rewriting moves no tip.** -/
theorem blockTip_alignedFields {raw : Value} (fields : List (Text × Value)) (txs : List Value)
    {index : Number} (h : IndexBelow txs.length index) :
    blockTip (.object (alignedFields fields txs
      (normalizePriorityTips (raw.get "priority_tips") txs.length))) index =
        blockTip raw index := by
  rw [blockTip, get_priorityTips_alignedFields, blockTip]
  cases hindex : index.toInt? with
  | none =>
    cases normalizePriorityTips (raw.get "priority_tips") txs.length <;>
      cases raw.get "priority_tips" <;> rfl
  | some z =>
    cases z with
    | negSucc k =>
      cases normalizePriorityTips (raw.get "priority_tips") txs.length <;>
        cases raw.get "priority_tips" <;> rfl
    | ofNat i =>
      have hi := lt_of_indexBelow h hindex
      cases htips : normalizePriorityTips (raw.get "priority_tips") txs.length with
      | none =>
        cases hv : raw.get "priority_tips" with
        | array items =>
          rw [hv] at htips
          exact (bind_positiveTip_of_eq_none htips hi).symm
        | _ => rfl
      | some out =>
        obtain ⟨items, hv, -, rfl⟩ := normalizePriorityTips_eq_some_iff.mp htips
        rw [hv]
        change ((writtenTips items txs.length).map Value.string)[i]?.bind positiveTip =
          items[i]?.bind positiveTip
        rw [List.getElem?_map, getElem?_writtenTips items hi]
        exact positiveTip_tipText_bind _

theorem txPriorityTip_normalizeBlock (raw : Value) {index : Number}
    (h : IndexBelow (txCount raw) index) (tx : Value) :
    txPriorityTip (normalizeBlock raw) index tx = txPriorityTip raw index tx := by
  have hblock : blockTip (normalizeBlock raw) index = blockTip raw index := by
    cases hfields : ownFields raw with
    | none =>
      rw [normalizeBlock_of_ownFields_eq_none hfields]
      cases raw with
      | object fields => cases hfields
      | array items => cases hfields
      | _ => rfl
    | some fields =>
      rcases normalizeBlock_cases hfields with ⟨heq, -⟩ | heq
      · rw [heq]
      · rw [heq]
        exact blockTip_alignedFields fields _ h
  rw [txPriorityTip, txPriorityTip, hblock]

/-! ## The other fields -/

/-- The fields of a block stay, but for `priority_tips` and for a `transactions` that is no array:
that one becomes empty. -/
def KeepsFields (raw normalized : Value) : Prop :=
  ∀ fields, ownFields raw = some fields → ∃ fields', ownFields normalized = some fields' ∧
    (∀ k : Text, k ≠ "priority_tips" → (k = "transactions" → (raw.get k).asArray?.isSome) →
      fields'.lookup k = fields.lookup k) ∧
    ((raw.get "transactions").asArray? = none →
      fields'.lookup ("transactions" : Text) = some (.array []))

theorem keepsFields_normalizeBlock (raw : Value) : KeepsFields raw (normalizeBlock raw) := by
  intro fields h
  rcases normalizeBlock_cases h with ⟨heq, txs, htxs, -⟩ | heq
  · rw [heq]
    refine ⟨fields, h, fun _ _ _ => rfl, ?_⟩
    rw [htxs]
    rintro ⟨⟩
  · rw [heq]
    refine ⟨_, rfl, ?_, ?_⟩
    · intro k hk harray
      rw [lookup_alignedFields, if_neg hk]
      by_cases htx : k = "transactions"
      · obtain ⟨txs, htxs⟩ := Option.isSome_iff_exists.mp (harray htx)
        subst htx
        rw [if_pos rfl, htxs]
        cases raw with
        | object fields' =>
          obtain rfl := Option.some.inj h
          rw [Value.get] at htxs
          cases hv : fields'.lookup ("transactions" : Text) with
          | none => rw [hv] at htxs; cases htxs
          | some v =>
            rw [hv] at htxs
            cases v with
            | array items =>
              obtain rfl := Option.some.inj htxs
              rfl
            | _ => cases htxs
        | _ => cases htxs
      · rw [if_neg htx]
    · intro hnone
      rw [lookup_alignedFields, if_neg (by decide), if_pos rfl, hnone]
      rfl

/-! ## The whole of it -/

/-- **Normalisation keeps tips aligned**: it is idempotent, leaves no tips or one for each
transaction, keeps the other fields, and moves no tip. -/
theorem normalizeBlock_keepsTips (raw : Value) :
    normalizeBlock (normalizeBlock raw) = normalizeBlock raw ∧
      ((normalizeBlock raw).get "priority_tips" = .undefined ∨
        ∃ tips : List Text,
          (normalizeBlock raw).get "priority_tips" = .array (tips.map .string) ∧
            tips.length = txCount (normalizeBlock raw)) ∧
      txCount (normalizeBlock raw) = txCount raw ∧
      KeepsFields raw (normalizeBlock raw) ∧
      ∀ index, IndexBelow (txCount raw) index → ∀ tx,
        txPriorityTip (normalizeBlock raw) index tx = txPriorityTip raw index tx := by
  refine ⟨normalizeBlock_normalizeBlock raw, ?_, txCount_normalizeBlock raw,
    keepsFields_normalizeBlock raw, fun index h tx => txPriorityTip_normalizeBlock raw h tx⟩
  cases h : ownFields raw with
  | none =>
    rw [normalizeBlock_of_ownFields_eq_none h]
    exact Or.inl rfl
  | some fields => exact (aligned_normalizeBlock h).tips

/-- A `transactions` that is no array changes. -/
theorem normalizeBlock_changes_transactions :
    ¬ ∀ raw fields fields', ownFields raw = some fields →
      ownFields (normalizeBlock raw) = some fields' →
        ∀ k : Text, k ≠ "priority_tips" → fields'.lookup k = fields.lookup k := by
  intro h
  have hfield := h (.object [("transactions", .null)]) [("transactions", .null)]
    [("transactions", .array [])] rfl rfl "transactions" (by decide)
  cases hfield

end BoingObserver.Rpc
