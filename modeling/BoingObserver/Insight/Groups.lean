import BoingObserver.Payload.Tags
import BoingObserver.Rpc.Restore
import Mathlib.Data.List.SplitBy

/-!
# Groups of transactions

`groupTxInsights` of `tx-insight-groups.ts`: consecutive transactions of one kind and one signer
are shown as one group, and those of no known kind each by itself.

* `kindKey_mem`: a kind that is no declared one is a property that every object has.
* `Grouped`: the laws of the groups, which `addSlot` keeps.
* `groupTxInsights_exact`: grouping loses nothing, and the groups are as large as they can be.
* `Grouped.splitBy_eq`, `Grouped.unique`: the groups are the runs of the list, and the only groups
  with these laws.
-/

namespace BoingObserver.Insight

open Js Rpc Payload

/-! ## Kinds -/

/-- What a kind is to `===`: each property that the catalog inherits is a value of its own. -/
inductive KindValue
  | known (variant : PayloadVariant)
  | inherited (key : Text)
  | unknown
  deriving DecidableEq

/-- The text of the field `kind`. -/
def kindField (p : Fields) : Text := ((p.get "kind").asString?).getD []

/-- The key by which a payload names its kind: its text, its tag, or the field `kind`. -/
def kindKey (payload : Value) : Text :=
  match payload with
  | .string s => s
  | .object [(key, val)] =>
    if (resolveTaggedPayloadKind key).isSome then key else kindField [(key, val)]
  | .object p => kindField p
  | _ => []

/-- `getTxPayloadKind(payload)`, as the value it is. -/
def kindValue (payload : Value) : KindValue :=
  match getTxPayloadKind payload with
  | .known variant => .known variant
  | .inherited => .inherited (kindKey payload)
  | .unknown => .unknown

/-- **An inherited kind comes from a key that every object has.** -/
theorem kindKey_mem {payload : Value} (h : getTxPayloadKind payload = .inherited) :
    kindKey payload ∈ objectPrototype := by
  have htag : InheritedTag payload := by
    by_contra hno
    have hkind := (getTxPayloadKind_isKind payload).mpr hno
    rw [h] at hkind
    exact hkind
  cases htag with
  | text hs => exact hs
  | @key k body hk =>
    rw [kindKey, resolve_objectPrototype k hk]
    exact hk
  | @kind p s hcall hs hmem =>
    have hfield : kindField p ∈ objectPrototype := by
      rw [kindField, hs]
      exact hmem
    match p with
    | [] => exact hfield
    | [(key, val)] =>
      rw [kindKey]
      cases hr : resolveTaggedPayloadKind key with
      | some kind => exact (inheritedTag_tagged_iff hr).mp (.kind hcall hs hmem)
      | none => exact hfield
    | _ :: _ :: _ => exact hfield

/-! ## The groups -/

structure TxInsightSlot where
  index : ℕ
  tx : BlockTransaction
  receipt : Value

structure TxInsightGroup where
  kind : KindValue
  /-- Lowercase 64-hex signer, or empty when unknown. -/
  signer : Text
  items : List TxInsightSlot

/-- `Array.isArray(receipts) ? receipts[i] : undefined` -/
def receiptAt (receipts : Value) (i : ℕ) : Value :=
  match receipts with
  | .array items => items[i]?.getD .undefined
  | _ => .undefined

def slots (txs : List BlockTransaction) (receipts : Value) : List TxInsightSlot :=
  txs.zipIdx.map fun p => ⟨p.2, p.1, receiptAt receipts p.2⟩

section

variable (nt : NumberText) (lower : Text → Text)

/-- The signer of a transaction; `lower` is `toLowerCase` on all letters there are. -/
def signerKey (tx : BlockTransaction) : Text := lower (hexForLink nt tx.sender)

/-- One round of the loop: the slot goes to the last group, or to one of its own. -/
def addSlot (groups : List TxInsightGroup) (slot : TxInsightSlot) : List TxInsightGroup :=
  let kind := kindValue slot.tx.payload
  let signer := signerKey nt lower slot.tx
  let own := groups ++ [⟨kind, signer, [slot]⟩]
  match groups.getLast? with
  | some prev =>
    if prev.kind = kind ∧ prev.signer = signer ∧ kind ≠ .unknown then
      groups.dropLast ++ [{ prev with items := prev.items ++ [slot] }]
    else own
  | none => own

/-- Walk the transactions in order; merge consecutive slots that share payload kind and signer. -/
def groupTxInsights (txs : List BlockTransaction) (receipts : Value) : List TxInsightGroup :=
  (slots txs receipts).foldl (addSlot nt lower) []

/-! ## One round -/

def Takes (g : TxInsightGroup) (slot : TxInsightSlot) : Prop :=
  g.kind = kindValue slot.tx.payload ∧ g.signer = signerKey nt lower slot.tx ∧
    kindValue slot.tx.payload ≠ .unknown

def ownGroup (slot : TxInsightSlot) : TxInsightGroup :=
  ⟨kindValue slot.tx.payload, signerKey nt lower slot.tx, [slot]⟩

/-- **What a round does**: the last group grows by the slot, or a new one is opened that the last
group would not take in. -/
theorem addSlot_cases (groups : List TxInsightGroup) (slot : TxInsightSlot) :
    (∃ init prev, groups = init ++ [prev] ∧ Takes nt lower prev slot ∧
      addSlot nt lower groups slot = init ++ [{ prev with items := prev.items ++ [slot] }]) ∨
    ((∀ prev ∈ groups.getLast?, ¬ Takes nt lower prev slot) ∧
      addSlot nt lower groups slot = groups ++ [ownGroup nt lower slot]) := by
  cases groups using List.reverseRecOn with
  | nil =>
    refine Or.inr ⟨?_, rfl⟩
    intro prev hprev
    cases hprev
  | append_singleton init prev =>
    by_cases htakes : Takes nt lower prev slot
    · refine Or.inl ⟨init, prev, rfl, htakes, ?_⟩
      simp only [addSlot, List.getLast?_concat, List.dropLast_concat]
      exact if_pos htakes
    · refine Or.inr ⟨?_, ?_⟩
      · intro g hg
        rw [List.getLast?_concat] at hg
        obtain rfl := Option.some.inj hg
        exact htakes
      · simp only [addSlot, List.getLast?_concat]
        exact if_neg htakes

/-! ## The laws of the groups -/

def Belongs (g : TxInsightGroup) (slot : TxInsightSlot) : Prop :=
  kindValue slot.tx.payload = g.kind ∧ signerKey nt lower slot.tx = g.signer

/-- A group has items, all its own, and only one if it is of unknown kind. -/
structure IsGroup (g : TxInsightGroup) : Prop where
  ne_nil : g.items ≠ []
  belongs : ∀ slot ∈ g.items, Belongs nt lower g slot
  single : g.kind = .unknown → g.items.length = 1

structure Grouped (l : List TxInsightSlot) (groups : List TxInsightGroup) : Prop where
  items : groups.flatMap (·.items) = l
  isGroup : ∀ g ∈ groups, IsGroup nt lower g
  differ : groups.IsChain fun g g' => g.kind = g'.kind → g.signer = g'.signer → g.kind = .unknown

variable {nt lower} {l : List TxInsightSlot} {groups : List TxInsightGroup} {g : TxInsightGroup}
  {slot : TxInsightSlot}

theorem isGroup_ownGroup (slot : TxInsightSlot) : IsGroup nt lower (ownGroup nt lower slot) where
  ne_nil := List.cons_ne_nil slot []
  belongs := by
    intro s hs
    obtain rfl := List.mem_singleton.mp hs
    exact ⟨rfl, rfl⟩
  single _ := rfl

theorem IsGroup.grow (h : IsGroup nt lower g) (htakes : Takes nt lower g slot) :
    IsGroup nt lower { g with items := g.items ++ [slot] } where
  ne_nil := by simp
  belongs := by
    intro s hs
    rcases List.mem_append.mp hs with hs | hs
    · exact h.belongs s hs
    · obtain rfl := List.mem_singleton.mp hs
      exact ⟨htakes.1.symm, htakes.2.1.symm⟩
  single hkind := absurd (htakes.1.symm.trans hkind) htakes.2.2

theorem grouped_nil : Grouped nt lower [] [] where
  items := rfl
  isGroup := by simp
  differ := List.isChain_nil

/-- **A group of its own** for a slot that the last group does not take in. -/
theorem Grouped.push (h : Grouped nt lower l groups)
    (hlast : ∀ prev ∈ groups.getLast?, ¬ Takes nt lower prev slot) :
    Grouped nt lower (l ++ [slot]) (groups ++ [ownGroup nt lower slot]) where
  items := by
    rw [List.flatMap_append, h.items]
    rfl
  isGroup := List.forall_mem_append.mpr
    ⟨h.isGroup, List.forall_mem_singleton.mpr (isGroup_ownGroup slot)⟩
  differ := by
    refine h.differ.append (List.isChain_singleton _) ?_
    intro prev hprev g hg hkind hsigner
    obtain rfl := Option.some.inj hg
    -- Otherwise the last group would have taken the slot in.
    by_contra hne
    refine hlast prev hprev ⟨hkind, hsigner, ?_⟩
    intro hunknown
    exact hne (hkind.trans hunknown)

/-- **The last group grows** by a slot that it takes in. -/
theorem Grouped.grow {init : List TxInsightGroup} {prev : TxInsightGroup}
    (h : Grouped nt lower l (init ++ [prev])) (htakes : Takes nt lower prev slot) :
    Grouped nt lower (l ++ [slot])
      (init ++ [{ prev with items := prev.items ++ [slot] }]) where
  items := by
    rw [← h.items]
    simp
  isGroup := by
    obtain ⟨hinit, hprev⟩ := List.forall_mem_append.mp h.isGroup
    have hgrown := (List.forall_mem_singleton.mp hprev).grow htakes
    exact List.forall_mem_append.mpr ⟨hinit, List.forall_mem_singleton.mpr hgrown⟩
  differ := by
    obtain ⟨hinit, -, hlast⟩ := List.isChain_append.mp h.differ
    refine hinit.append (List.isChain_singleton _) ?_
    intro g hg g' hg'
    obtain rfl := Option.some.inj hg'
    exact hlast g hg prev rfl

/-- **A round keeps the laws.** -/
theorem Grouped.addSlot (h : Grouped nt lower l groups) (slot : TxInsightSlot) :
    Grouped nt lower (l ++ [slot]) (addSlot nt lower groups slot) := by
  rcases addSlot_cases nt lower groups slot with ⟨init, prev, rfl, htakes, heq⟩ | ⟨hlast, heq⟩
  · rw [heq]
    exact h.grow htakes
  · rw [heq]
    exact h.push hlast

/-- **The loop keeps the laws**, from any groups on. -/
theorem Grouped.foldl (h : Grouped nt lower l groups) (l' : List TxInsightSlot) :
    Grouped nt lower (l ++ l') (l'.foldl (Insight.addSlot nt lower) groups) := by
  induction l' generalizing l groups with
  | nil =>
    rw [List.append_nil]
    exact h
  | cons slot l' ih =>
    have hnext := ih (h.addSlot slot)
    rw [List.append_assoc] at hnext
    exact hnext

theorem groupTxInsights_grouped (txs : List BlockTransaction) (receipts : Value) :
    Grouped nt lower (slots txs receipts) (groupTxInsights nt lower txs receipts) :=
  grouped_nil.foldl (slots txs receipts)

/-! ## The runs of the list -/

def together (nt : NumberText) (lower : Text → Text) (a b : TxInsightSlot) : Bool :=
  kindValue a.tx.payload = kindValue b.tx.payload ∧
    signerKey nt lower a.tx = signerKey nt lower b.tx ∧ kindValue b.tx.payload ≠ .unknown

theorem IsGroup.isChain (h : IsGroup nt lower g) :
    g.items.IsChain fun a b => together nt lower a b = true := by
  by_cases hunknown : g.kind = .unknown
  · obtain ⟨slot, hslot⟩ := List.length_eq_one_iff.mp (h.single hunknown)
    rw [hslot]
    exact List.isChain_singleton slot
  · refine (List.pairwise_of_forall_mem_list ?_).isChain
    intro a ha b hb
    obtain ⟨hkind, hsigner⟩ := h.belongs a ha
    obtain ⟨hkind', hsigner'⟩ := h.belongs b hb
    refine decide_eq_true ⟨hkind.trans hkind'.symm, hsigner.trans hsigner'.symm, ?_⟩
    rw [hkind']
    exact hunknown

/-- **The groups are the runs of the list**, of slots that stand together. -/
theorem Grouped.splitBy_eq (h : Grouped nt lower l groups) :
    l.splitBy (together nt lower) = groups.map (·.items) := by
  rw [List.splitBy_eq_iff]
  refine ⟨?_, ?_, ?_, ?_⟩
  · rw [← h.items, List.flatMap_def]
  · intro hmem
    obtain ⟨g, hg, hnil⟩ := List.mem_map.mp hmem
    exact (h.isGroup g hg).ne_nil hnil
  · intro items hitems
    obtain ⟨g, hg, rfl⟩ := List.mem_map.mp hitems
    exact (h.isGroup g hg).isChain
  · rw [List.isChain_map]
    refine h.differ.imp_of_mem_imp ?_
    intro g g' hg hg' hdiffer
    have hgroup := h.isGroup g hg
    have hgroup' := h.isGroup g' hg'
    refine ⟨hgroup.ne_nil, hgroup'.ne_nil, decide_eq_false ?_⟩
    -- The last slot of one group against the first of the next.
    obtain ⟨hkind, hsigner⟩ := hgroup.belongs _ (List.getLast_mem hgroup.ne_nil)
    obtain ⟨hkind', hsigner'⟩ := hgroup'.belongs _ (List.head_mem hgroup'.ne_nil)
    rw [hkind, hkind', hsigner, hsigner']
    rintro ⟨hk, hs, hknown⟩
    exact hknown (hk.symm.trans (hdiffer hk hs))

theorem IsGroup.eq_of_items_eq {g' : TxInsightGroup} (h : IsGroup nt lower g)
    (h' : IsGroup nt lower g') (heq : g.items = g'.items) : g = g' := by
  obtain ⟨kind, signer, items⟩ := g
  obtain ⟨kind', signer', items'⟩ := g'
  obtain rfl : items = items' := heq
  obtain ⟨slot, hslot⟩ := List.exists_mem_of_ne_nil items h.ne_nil
  obtain ⟨hkind, hsigner⟩ := h.belongs slot hslot
  obtain ⟨hkind', hsigner'⟩ := h'.belongs slot hslot
  rw [TxInsightGroup.mk.injEq]
  exact ⟨hkind.symm.trans hkind', hsigner.symm.trans hsigner', rfl⟩

/-- **No other groups have these laws.** -/
theorem Grouped.unique {groups' : List TxInsightGroup} (h : Grouped nt lower l groups)
    (h' : Grouped nt lower l groups') : groups = groups' := by
  have hitems : groups.map (·.items) = groups'.map (·.items) :=
    h.splitBy_eq.symm.trans h'.splitBy_eq
  have hlength : groups.length = groups'.length := by
    simpa using congrArg List.length hitems
  refine List.ext_getElem hlength ?_
  intro i hi hi'
  have hgroup := h.isGroup _ (List.getElem_mem hi)
  refine hgroup.eq_of_items_eq (h'.isGroup _ (List.getElem_mem hi')) ?_
  have hget := congrArg (fun items => items[i]?) hitems
  simpa [hi, hi'] using hget

/-! ## Grouping -/

theorem getElem?_slots (txs : List BlockTransaction) (receipts : Value) (i : ℕ) :
    (slots txs receipts)[i]? =
      txs[i]?.map fun tx => TxInsightSlot.mk i tx (receiptAt receipts i) := by
  rw [slots, List.getElem?_map, List.getElem?_zipIdx, Option.map_map]
  simp [Function.comp_def]

/-- **Grouping loses nothing.**  The items of the groups, one group after the other, are the
transactions in order, each with its place and its receipt; all items of a group are of its kind
and by its signer; neighbours differ in the kind or the signer, unless the kind is unknown; and
a group of unknown kind has one item. -/
theorem groupTxInsights_exact (nt : NumberText) (lower : Text → Text)
    (txs : List BlockTransaction) (receipts : Value) :
    let groups := groupTxInsights nt lower txs receipts
    (∀ i, (groups.flatMap (·.items))[i]? =
        txs[i]?.map fun tx => TxInsightSlot.mk i tx (receiptAt receipts i)) ∧
      (∀ g ∈ groups, ∀ slot ∈ g.items, kindValue slot.tx.payload = g.kind ∧
        signerKey nt lower slot.tx = g.signer) ∧
      (groups.IsChain fun g g' => g.kind ≠ g'.kind ∨ g.signer ≠ g'.signer ∨
        (g.kind = .unknown ∧ g'.kind = .unknown)) ∧
      ∀ g ∈ groups, g.kind = .unknown → g.items.length = 1 := by
  intro groups
  have h : Grouped nt lower (slots txs receipts) groups := groupTxInsights_grouped txs receipts
  refine ⟨?_, fun g hg => (h.isGroup g hg).belongs, ?_, fun g hg => (h.isGroup g hg).single⟩
  · intro i
    rw [h.items]
    exact getElem?_slots txs receipts i
  · refine h.differ.imp ?_
    intro g g' hdiffer
    by_cases hkind : g.kind = g'.kind
    · by_cases hsigner : g.signer = g'.signer
      · have hunknown := hdiffer hkind hsigner
        exact Or.inr (Or.inr ⟨hunknown, hkind.symm.trans hunknown⟩)
      · exact Or.inr (Or.inl hsigner)
    · exact Or.inl hkind

/-- Two transactions by one signer, in two spellings, and one by another. -/
example :
    let tx (sender : Text) : BlockTransaction := ⟨.string sender, .string "ClaimUnbond", []⟩
    let groups := groupTxInsights integersOnly toLowerCase [tx "0xAA", tx "aa", tx "bb"] .null
    groups.map (·.items.map (·.index)) = [[0, 1], [2]] := by
  decide +kernel

end

end BoingObserver.Insight
