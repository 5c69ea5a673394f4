import BoingObserver.Payload.Kind

/-!
# Tags and kinds

Which kinds `getTxPayloadKind` of `tx-payload.ts` can give, and what a tag gives.

* `resolveTaggedPayloadKind_letterCase`: a variant's name is found in PascalCase and
  in snake_case, whatever the letter case.
* `getTxPayloadKind_isKind_iff`: the kind is one of the declared ones iff no tag is a
  key that every object has.
-/

namespace BoingObserver.Payload

open Js

/-! ## The declared kinds -/

/-- The kinds of `TxPayloadKind`. -/
def IsKind : TxPayloadKind → Prop
  | .known variant => variant ≠ .contractCallWithValue
  | .unknown => True
  | .inherited => False

/-- Fields that are not those of a deploy, a call, a batch or a transfer. -/
def NoCall (p : Fields) : Prop :=
  p.has "bytecode" = false ∧ p.has "contract" = false ∧ (p.get "calls").asArray? = none ∧
    ¬ (p.has "to" = true ∧ p.has "amount" = true)

inductive InheritedTag : Value → Prop
  | text {s : Text} : s ∈ objectPrototype → InheritedTag (.string s)
  | key {k : Text} {body : Value} : k ∈ objectPrototype → InheritedTag (.object [(k, body)])
  | kind {p : Fields} {s : Text} : NoCall p → p.get "kind" = .string s → s ∈ objectPrototype →
      InheritedTag (.object p)

/-! ## Tags -/

theorem variant_of_mem_table : ∀ e ∈ taggedPayloadKindByKey, e.2 ≠ .contractCallWithValue := by
  decide +kernel

theorem resolve_objectPrototype : ∀ k ∈ objectPrototype,
    resolveTaggedPayloadKind k = some .inherited := by
  decide +kernel

theorem resolveTaggedPayloadKind_cases (key : Text) :
    resolveTaggedPayloadKind key = none ∨
      (∃ variant, resolveTaggedPayloadKind key = some (.known variant) ∧
        variant ≠ .contractCallWithValue) ∨
      (resolveTaggedPayloadKind key = some .inherited ∧ key ∈ objectPrototype) := by
  by_cases hkey : key ∈ objectPrototype
  · exact Or.inr (Or.inr ⟨resolve_objectPrototype key hkey, hkey⟩)
  · rw [resolveTaggedPayloadKind, recordGet]
    cases hl : taggedPayloadKindByKey.lookup key with
    | some variant =>
      exact Or.inr (Or.inl ⟨variant, rfl, variant_of_mem_table _ (mem_of_lookup_eq_some hl)⟩)
    | none =>
      rw [if_neg hkey]
      dsimp only
      cases hf : taggedPayloadKindByKey.find? fun e => toLowerCase e.1 = toLowerCase key with
      | none => exact Or.inl rfl
      | some e =>
        exact Or.inr (Or.inl ⟨e.2, rfl, variant_of_mem_table e (List.mem_of_find?_eq_some hf)⟩)

theorem resolveTaggedPayloadKind_eq_inherited_iff {key : Text} :
    resolveTaggedPayloadKind key = some .inherited ↔ key ∈ objectPrototype := by
  refine ⟨fun h => ?_, resolve_objectPrototype key⟩
  rcases resolveTaggedPayloadKind_cases key with h' | ⟨v, h', -⟩ | ⟨-, hkey⟩
  · rw [h] at h'
    cases h'
  · rw [h] at h'
    cases h'
  · exact hkey

theorem isKind_of_resolve {key : Text} {kind : TxPayloadKind}
    (h : resolveTaggedPayloadKind key = some kind) : IsKind kind ↔ key ∉ objectPrototype := by
  rw [← resolveTaggedPayloadKind_eq_inherited_iff, h]
  rcases resolveTaggedPayloadKind_cases key with h' | ⟨v, h', hv⟩ | ⟨h', -⟩
  · rw [h] at h'
    cases h'
  · rw [h] at h'
    obtain rfl := Option.some.inj h'
    exact iff_of_true hv (by simp)
  · rw [h] at h'
    obtain rfl := Option.some.inj h'
    exact iff_of_false id (by simp)

/-! ## Letter case -/

/-- The text is the name of the variant, in PascalCase or in snake_case, in any letter case. -/
def IsName (e : Text × PayloadVariant) (key : Text) : Prop :=
  toLowerCase key = toLowerCase e.1 ∨ toLowerCase key = toLowerCase (snakeCase e.1)

instance (e : Text × PayloadVariant) (key : Text) : Decidable (IsName e key) :=
  inferInstanceAs (Decidable (_ ∨ _))

/-- Keys of the table that are names of a variant stand for it. -/
theorem table_letterCase : ∀ e ∈ payloadVariants, ∀ t ∈ taggedPayloadKindByKey, IsName e t.1 →
    t.2 = displayKindForVariant e.2 := by
  decide +kernel

theorem objectPrototype_letterCase : ∀ e ∈ payloadVariants, ∀ k ∈ objectPrototype,
    ¬ IsName e k := by
  decide +kernel

theorem mem_table {e : Text × PayloadVariant} (he : e ∈ payloadVariants) :
    (e.1, displayKindForVariant e.2) ∈ taggedPayloadKindByKey ∧
      (snakeCase e.1, displayKindForVariant e.2) ∈ taggedPayloadKindByKey := by
  have hmem : ∀ p ∈ [(e.1, displayKindForVariant e.2), (snakeCase e.1, displayKindForVariant e.2)],
      p ∈ taggedPayloadKindByKey := fun p hp =>
    List.mem_append_left _ (List.mem_flatMap.mpr ⟨e, he, hp⟩)
  exact ⟨hmem _ List.mem_cons_self, hmem _ (List.mem_cons_of_mem _ List.mem_cons_self)⟩

/-- **A variant is found by its name**, whatever the letter case. -/
theorem resolveTaggedPayloadKind_letterCase {e : Text × PayloadVariant} (he : e ∈ payloadVariants)
    {key : Text} (hkey : IsName e key) :
    resolveTaggedPayloadKind key = some (.known (displayKindForVariant e.2)) := by
  have hproto : key ∉ objectPrototype := fun h => objectPrototype_letterCase e he key h hkey
  rw [resolveTaggedPayloadKind, recordGet]
  cases hl : taggedPayloadKindByKey.lookup key with
  | some variant =>
    have hvariant : variant = displayKindForVariant e.2 :=
      table_letterCase e he _ (mem_of_lookup_eq_some hl) hkey
    rw [hvariant]
  | none =>
    rw [if_neg hproto]
    dsimp only
    cases hf : taggedPayloadKindByKey.find? fun t => toLowerCase t.1 = toLowerCase key with
    | none =>
      have hno : ∀ t ∈ taggedPayloadKindByKey, toLowerCase t.1 ≠ toLowerCase key := by
        intro t ht heq
        exact absurd (decide_eq_true heq) (List.find?_eq_none.mp hf t ht)
      rcases hkey with h | h
      · exact absurd h.symm (hno (e.1, displayKindForVariant e.2) (mem_table he).1)
      · exact absurd h.symm (hno (snakeCase e.1, displayKindForVariant e.2) (mem_table he).2)
    | some t =>
      have hlower : toLowerCase t.1 = toLowerCase key := by
        have hfound := List.find?_some hf
        exact of_decide_eq_true hfound
      have hname : IsName e t.1 := by
        rw [IsName, hlower]
        exact hkey
      rw [Option.map_some, table_letterCase e he t (List.mem_of_find?_eq_some hf) hname]

/-! ## Flat payloads -/

theorem callKindFlat_eq_none_iff {p : Fields} : callKindFlat p = none ↔ NoCall p := by
  simp only [callKindFlat, NoCall]
  cases p.has "bytecode" with
  | true =>
    refine iff_of_false ?_ fun h => Bool.noConfusion h.1
    rw [if_pos rfl]
    split_ifs <;> exact not_false
  | false =>
    cases p.has "contract" with
    | true => exact iff_of_false (Option.some_ne_none _) fun h => Bool.noConfusion h.2.1
    | false =>
      cases (p.get "calls").asArray? with
      | some calls => exact iff_of_false (Option.some_ne_none _) fun h => by cases h.2.2.1
      | none =>
        cases p.has "to" with
        | false => exact iff_of_true rfl ⟨rfl, rfl, rfl, fun h => Bool.noConfusion h.1⟩
        | true =>
          cases p.has "amount" with
          | false => exact iff_of_true rfl ⟨rfl, rfl, rfl, fun h => Bool.noConfusion h.2⟩
          | true => exact iff_of_false (Option.some_ne_none _) fun h => h.2.2.2 ⟨rfl, rfl⟩

section

variable {x y : Option PayloadVariant} {kind : PayloadVariant}

theorem ite_ne {c : Prop} [Decidable c] (hx : x ≠ some kind) (hy : y ≠ some kind) :
    (if c then x else y) ≠ some kind := by
  split
  · exact hx
  · exact hy

theorem or_ne (hx : x ≠ some kind) (hy : y ≠ some kind) : x.or y ≠ some kind := by
  cases x with
  | none => exact hy
  | some k => exact hx

end

theorem callKindFlat_ne (p : Fields) : callKindFlat p ≠ some .contractCallWithValue := by
  unfold callKindFlat
  repeat' apply ite_ne
  all_goals decide

theorem nameKindFlat_ne (p : Fields) : nameKindFlat p ≠ some .contractCallWithValue := by
  unfold nameKindFlat
  repeat' apply ite_ne
  all_goals decide

theorem stakeKindFlat_ne (p : Fields) : stakeKindFlat p ≠ some .contractCallWithValue := by
  unfold stakeKindFlat
  repeat' apply ite_ne
  rotate_right
  · split
    · exact ite_ne (by decide) (by decide)
    · decide
  all_goals decide

theorem blobKindFlat_ne (p : Fields) : blobKindFlat p ≠ some .contractCallWithValue := by
  unfold blobKindFlat
  apply ite_ne
  · decide
  apply or_ne
  · repeat' apply ite_ne
    all_goals decide
  · repeat' apply ite_ne
    all_goals decide

/-- The kind by the fields, after the `kind` field. -/
theorem isKind_byFields (p : Fields) :
    IsKind (match (nameKindFlat p).or ((stakeKindFlat p).or (blobKindFlat p)) with
      | some kind => .known kind
      | none => .unknown) := by
  cases h : (nameKindFlat p).or ((stakeKindFlat p).or (blobKindFlat p)) with
  | none => trivial
  | some kind =>
    rintro rfl
    rcases Option.or_eq_some_iff.mp h with h | ⟨-, h⟩
    · exact nameKindFlat_ne p h
    · rcases Option.or_eq_some_iff.mp h with h | ⟨-, h⟩
      · exact stakeKindFlat_ne p h
      · exact blobKindFlat_ne p h

/-- The kind of a flat payload is declared unless its `kind` field is a key every object has. -/
theorem getTxPayloadKindFlat_isKind_iff (p : Fields) :
    IsKind (getTxPayloadKindFlat p) ↔
      ¬ (NoCall p ∧ ∃ s, p.get "kind" = .string s ∧ s ∈ objectPrototype) := by
  rw [getTxPayloadKindFlat, ← callKindFlat_eq_none_iff]
  cases hc : callKindFlat p with
  | some kind =>
    refine iff_of_true ?_ fun h => Option.some_ne_none kind h.1
    rintro rfl
    exact callKindFlat_ne p hc
  | none =>
    have hfields := isKind_byFields p
    cases hk : p.get "kind" with
    | string s =>
      have hiff : (¬ ((none : Option PayloadVariant) = none ∧
          ∃ s', Value.string s = .string s' ∧ s' ∈ objectPrototype)) ↔ s ∉ objectPrototype := by
        simp only [Value.string.injEq, true_and, exists_eq_left']
      rw [hiff]
      cases s with
      | nil => exact iff_of_true hfields (by decide)
      | cons c s =>
        dsimp only
        cases hr : resolveTaggedPayloadKind (c :: s) with
        | some kind => exact isKind_of_resolve hr
        | none =>
          refine iff_of_true hfields fun hmem => ?_
          rw [resolve_objectPrototype _ hmem] at hr
          cases hr
    | _ => exact iff_of_true hfields (by simp)

/-! ## Payloads -/

theorem isKind_string (s : Text) :
    IsKind (getTxPayloadKind (.string s)) ↔ ¬ InheritedTag (.string s) := by
  have htag : InheritedTag (.string s) ↔ s ∈ objectPrototype := by
    refine ⟨fun h => ?_, .text⟩
    cases h with
    | text hs => exact hs
  rw [htag]
  simp only [getTxPayloadKind, Value.isNullish, unwrapTaggedPayload, Bool.false_eq_true, if_false]
  cases hr : resolveTaggedPayloadKind s with
  | some kind => exact isKind_of_resolve hr
  | none =>
    refine iff_of_true trivial fun hs => ?_
    rw [resolve_objectPrototype s hs] at hr
    cases hr

theorem inheritedTag_flat_iff {p : Fields} (h : ∀ k body, p = [(k, body)] → k ∉ objectPrototype) :
    InheritedTag (.object p) ↔ NoCall p ∧ ∃ s, p.get "kind" = .string s ∧ s ∈ objectPrototype := by
  constructor
  · intro htag
    cases htag with
    | key hk => exact absurd hk (h _ _ rfl)
    | kind hcall hs hmem => exact ⟨hcall, _, hs, hmem⟩
  · rintro ⟨hcall, s, hs, hmem⟩
    exact .kind hcall hs hmem

theorem inheritedTag_tagged_iff {k : Text} {body : Value} {kind : TxPayloadKind}
    (h : resolveTaggedPayloadKind k = some kind) :
    InheritedTag (.object [(k, body)]) ↔ k ∈ objectPrototype := by
  refine ⟨fun htag => ?_, .key⟩
  cases htag with
  | key hk => exact hk
  | kind hcall hs hmem =>
    -- a record with the one field `kind` has no tag
    have hkind := field_not_tag "kind" (by decide)
    by_cases hk : k = "kind"
    · rw [hk, hkind] at h
      cases h
    · have hget : Fields.get [(k, body)] "kind" = .undefined := by
        have hbeq : (("kind" : Text) == k) = false := beq_false_of_ne (Ne.symm hk)
        rw [Fields.get, List.lookup_cons, hbeq]
        rfl
      rw [hget] at hs
      cases hs

theorem isKind_object (p : Fields) :
    IsKind (getTxPayloadKind (.object p)) ↔ ¬ InheritedTag (.object p) := by
  have hflat (h : ∀ k body, p = [(k, body)] → resolveTaggedPayloadKind k = none) :
      getTxPayloadKind (.object p) = getTxPayloadKindFlat p ∧
        (IsKind (getTxPayloadKindFlat p) ↔ ¬ InheritedTag (.object p)) := by
    refine ⟨?_, ?_⟩
    · match p, h with
      | [], _ => rfl
      | [(k, body)], h =>
        simp only [getTxPayloadKind, Value.isNullish, unwrapTaggedPayload, h k body rfl]
        rfl
      | _ :: _ :: _, _ => rfl
    · rw [getTxPayloadKindFlat_isKind_iff, inheritedTag_flat_iff]
      intro k body hp hmem
      have hr := h k body hp
      rw [resolve_objectPrototype k hmem] at hr
      cases hr
  by_cases htagged : ∃ k body kind, p = [(k, body)] ∧ resolveTaggedPayloadKind k = some kind
  · obtain ⟨k, body, kind, rfl, hr⟩ := htagged
    have hkind : getTxPayloadKind (.object [(k, body)]) = kind := by
      cases body <;> simp only [getTxPayloadKind, Value.isNullish, unwrapTaggedPayload, hr] <;> rfl
    rw [hkind, inheritedTag_tagged_iff hr]
    exact isKind_of_resolve hr
  · obtain ⟨heq, hiff⟩ := hflat fun k body hp =>
      Option.eq_none_iff_forall_ne_some.mpr fun kind hr => htagged ⟨k, body, kind, hp, hr⟩
    rw [heq, hiff]

/-- **The kind of a payload is one of the declared ones** unless a key every object has is taken
for a tag. -/
theorem getTxPayloadKind_isKind (payload : Value) :
    IsKind (getTxPayloadKind payload) ↔ ¬ InheritedTag payload := by
  cases payload with
  | string s => exact isKind_string s
  | object p => exact isKind_object p
  | _ => exact iff_of_true trivial (by rintro ⟨⟩)

/-- **A payload's kind is a catalog kind** exactly when its tag is no key that every object has;
and a payload tagged with the name of a variant is of that variant. -/
theorem getTxPayloadKind_isKind_iff (payload : Value) :
    (IsKind (getTxPayloadKind payload) ↔ ¬ InheritedTag payload) ∧
    ∀ e ∈ payloadVariants, ∀ key, IsName e key →
      (payload = .string key ∨ ∃ body, payload = .object [(key, body)]) →
      getTxPayloadKind payload = .known (displayKindForVariant e.2) := by
  refine ⟨getTxPayloadKind_isKind payload, fun e he key hkey htagged => ?_⟩
  have htag := resolveTaggedPayloadKind_letterCase he hkey
  rcases htagged with rfl | ⟨body, rfl⟩
  · simp only [getTxPayloadKind, Value.isNullish, unwrapTaggedPayload, htag]
    rfl
  · cases body <;> simp only [getTxPayloadKind, Value.isNullish, unwrapTaggedPayload, htag] <;> rfl

/-- The payload `{constructor: {}}` has no declared kind. -/
theorem constructor_not_isKind :
    ¬ IsKind (getTxPayloadKind (.object [("constructor", .object [])])) := by
  rw [getTxPayloadKind_isKind]
  exact not_not_intro (.key (by decide))

end BoingObserver.Payload
