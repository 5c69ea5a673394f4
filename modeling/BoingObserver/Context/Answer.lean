import BoingObserver.Context.Server

/-!
# What a context says of an id

The tables of an answer, read by id, as the page reads them.

* `shows_answer`: a context says of the ids it was asked for what its sources say of them.
-/

namespace BoingObserver.Context

open Js Contract

/-! ## Tables of ids -/

section

variable {β γ : Type}

theorem lookup_filterMap (f : Text → Option β) (g : β → γ) (ids : List Text) (k : Text) :
    (ids.filterMap fun id => (f id).map fun v => (id, g v)).lookup k =
      if k ∈ ids then (f k).map g else none := by
  induction ids with
  | nil => rfl
  | cons id ids ih =>
    by_cases hk : k = id
    · subst hk
      rw [if_pos List.mem_cons_self]
      cases hf : f k with
      | none =>
        rw [List.filterMap_cons_none (by rw [hf]; rfl), ih, hf]
        exact ite_self _
      | some v =>
        rw [List.filterMap_cons_some (b := (k, g v)) (by rw [hf]; rfl), List.lookup_cons_self]
        rfl
    · have hmem : k ∈ id :: ids ↔ k ∈ ids := by simp [hk]
      cases hf : f id with
      | none => rw [List.filterMap_cons_none (by rw [hf]; rfl), ih, if_congr hmem rfl rfl]
      | some v =>
        rw [List.filterMap_cons_some (b := (id, g v)) (by rw [hf]; rfl), List.lookup_cons,
          beq_eq_false_iff_ne.mpr hk, ih, if_congr hmem rfl rfl]

theorem get_setAll_filterMap (f : Text → Option β) (g : β → γ) (ids : List Text) (k : Text) :
    (setAll (ids.filterMap fun id => (f id).map fun v => (id, g v))).get k =
      if k ∈ ids then (f k).map g else none := by
  rw [get_setAll, ← List.filterMap_reverse, lookup_filterMap, if_congr List.mem_reverse rfl rfl]

end

theorem mem_foldl_addId {ids out : List Text} {k : Text} :
    k ∈ ids.foldl addId out ↔ k ∈ out ∨ k ∈ ids := by
  induction ids generalizing out with
  | nil => simp
  | cons id ids ih =>
    have hadd : k ∈ addId out id ↔ k ∈ out ∨ k = id := by
      rw [addId]
      split
      next hid => exact (or_iff_left_of_imp fun hk => hk ▸ hid).symm
      next => rw [List.mem_append, List.mem_singleton]
    rw [List.foldl_cons, ih, hadd, or_assoc, List.mem_cons]

namespace ContextQuery

variable (P : ResolvePlatform) (q : ContextQuery)

/-- The id may be a token: it was asked for, or is one of the pair of a pool or a vault. -/
def MayBeToken (d : Directory) (vault : Option VaultMeta) (id : Text) : Prop :=
  id ∈ q.want ∨ (∃ a ∈ q.want, ∃ pool, d.pools.get a = some pool ∧ id ∈ [pool.tokenA, pool.tokenB]) ∨
    ∃ v, vault = some v ∧ id ∈ [v.tokenA, v.tokenB]

structure Shows (src : Sources) (out : TxContext) : Prop where
  contract : out.contract = q.contractInfo P src.directory src.resolved
  pools : ∀ id, out.pools.get id =
    if id ∈ q.want ∨ src.vault.map (·.pool) = some id then src.directory.pools.get id else none
  tokens : ∀ id, q.MayBeToken src.directory src.vault id →
    out.tokens.get id = mergeTokenMeta (src.directory.tokens.get id) (src.tokens.get id)
  others : ∀ id, ¬ q.MayBeToken src.directory src.vault id → out.tokens.get id = none
  vaults : ∀ id, out.vaults.get id = if id = q.contract then src.vault else none
  labels : ∀ id, out.labels.get id =
    (if id = q.contract then src.resolved.bind fun r => nonEmpty r.identity.label else none).or
      (if id ∈ q.want then (q.canonical P id).map (·.label) else none)

theorem mem_tokenIds (d : Directory) (vault : Option VaultMeta) (id : Text) :
    id ∈ q.tokenIds d vault ↔ q.MayBeToken d vault id := by
  have hown : id ∈ (if q.contract ≠ [] then [q.contract] else []) → id ∈ q.want := by
    rw [want]
    split
    · intro hid
      exact List.mem_append_right _ hid
    · intro hid
      cases hid
  rw [tokenIds, mem_foldl_addId, MayBeToken]
  simp only [List.mem_append, List.mem_flatMap, List.mem_filterMap, Option.mem_toList]
  constructor
  · rintro (h | ((h | h) | h) | h)
    · cases h
    · exact .inl (hown h)
    · obtain ⟨pool, ⟨a, ha, hpool⟩, hid⟩ := h
      exact .inr (.inl ⟨a, ha, pool, hpool, hid⟩)
    · exact .inr (.inr h)
    · exact .inl h
  · rintro (h | ⟨a, ha, pool, hpool, hid⟩ | h)
    · exact .inr (.inr h)
    · exact .inr (.inl (.inl (.inr ⟨pool, ⟨a, ha, hpool⟩, hid⟩)))
    · exact .inr (.inl (.inr h))

/-- **A context says of an id** what its sources say of it. -/
theorem shows_answer (src : Sources) : q.Shows P src (q.answer P src) where
  contract := rfl
  pools id := by
    have hget := get_setAll_filterMap src.directory.pools.get (fun pool => pool)
      (q.want ++ (src.vault.map (·.pool)).toList) id
    rw [Option.map_id'] at hget
    refine hget.trans (if_congr ?_ rfl rfl)
    rw [List.mem_append, Option.mem_toList]
  tokens id hid := by
    have hget := get_setAll_filterMap
      (fun id => mergeTokenMeta (src.directory.tokens.get id) (src.tokens.get id)) (fun t => t)
      (q.tokenIds src.directory src.vault) id
    rw [Option.map_id', if_pos ((q.mem_tokenIds _ _ id).mpr hid)] at hget
    exact hget
  others id hid := by
    have hget := get_setAll_filterMap
      (fun id => mergeTokenMeta (src.directory.tokens.get id) (src.tokens.get id)) (fun t => t)
      (q.tokenIds src.directory src.vault) id
    rw [if_neg (mt (q.mem_tokenIds _ _ id).mp hid)] at hget
    exact hget
  vaults id := by
    change (q.vaults src.vault).get id = _
    cases src.vault with
    | none => rw [vaults, Map.get_empty, ite_self]
    | some v => rw [vaults, Map.get_set, Map.get_empty]
  labels id := by
    have hget := get_setAll_filterMap (q.canonical P) (·.label) q.want id
    change (q.labels P src.resolved).get id = _
    rw [labels]
    split
    next label hlabel =>
      rw [Map.get_set, hget, hlabel]
      split
      · rfl
      · rfl
    next hnone =>
      rw [hget, hnone, ite_self, Option.none_or]

end ContextQuery

end BoingObserver.Context
