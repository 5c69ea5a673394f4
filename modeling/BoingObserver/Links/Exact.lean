import BoingObserver.Links.Companions

/-!
# The companions are exact

`listLinkedCompanionsForAsset` against the contents of the registry: for every node that
gives each call one answer, the listing of an asset has its links and no others.

* `mem_companions_iff`, `mem_others_iff`: what a scan collects.
* `listsExactly_listingOf`: the listing of the reads is exact.
* `listLinkedCompanions_exact`: so is what the code returns when no read of a slot throws,
  and being listed is symmetric.
* `listing_resolves_iff`: the code returns at all iff no read of a slot throws.
-/

namespace BoingObserver.Links

open Js Rpc Oracle

/-! ## The contents of the registry -/

section

variable (reply : Simulate → Except JsError Value) (registryId : Text)

structure ActiveAt (index : ℕ) (collection token : Text) : Prop where
  readable : ∃ link, readSlot reply registryId index = .ok (some link) ∧
    link.collectionHex = collection ∧ link.tokenHex = token
  collection_ne : collection ≠ zero32
  token_ne : token ≠ zero32

def CompanionPeer.IsOf (asset : Text) (p : CompanionPeer) : Prop :=
  (p.collectionId = asset ∧ p.peerRole = .fungible ∧ p.peerId = p.tokenId) ∨
    (p.collectionId ≠ asset ∧ p.tokenId = asset ∧ p.peerRole = .collection ∧
      p.peerId = p.collectionId)

/-- The listing has the links of the asset, or if there is none the links that it manages, in
the order of the slots. -/
structure ListsExactly (count : ℕ) (maxScan : Number) (includeManaged : Bool) (asset : Text)
    (r : Listing) : Prop where
  companions (p : CompanionPeer) : p ∈ r.companions ↔ Scanned count maxScan p.index ∧
    ActiveAt reply registryId p.index p.collectionId p.tokenId ∧ p.IsOf asset
  companions_ordered : r.companions.Pairwise (·.index < ·.index)
  managed (l : ManagedLink) : l ∈ r.managedLinks ↔ (includeManaged = true ∧ r.companions = []) ∧
    Scanned count maxScan l.index ∧ ActiveAt reply registryId l.index l.collectionId l.tokenId ∧
      readClaimer reply registryId l.collectionId = some asset ∧ l.claimer = asset
  managed_ordered : r.managedLinks.Pairwise (·.index < ·.index)

end

/-! ## One slot -/

section

variable {asset : Text} {index : ℕ} {link : LinkAt}

theorem addLink_eq (asset : Text) (s : Scan) (index : ℕ) (link : LinkAt) :
    addLink asset s index link =
      ⟨s.companions ++ (addLink asset {} index link).companions,
        s.others ++ (addLink asset {} index link).others⟩ := by
  simp only [addLink]
  split_ifs <;> simp

theorem mem_companions_addLink {p : CompanionPeer} :
    p ∈ (addLink asset {} index link).companions ↔
      p.index = index ∧ link.active = true ∧ toLowerCase link.collectionHex = p.collectionId ∧
        toLowerCase link.tokenHex = p.tokenId ∧ p.IsOf asset := by
  obtain ⟨i, role, peer, collection, token⟩ := p
  simp only [addLink, CompanionPeer.IsOf]
  split_ifs with hactive hcollection htoken <;> grind

theorem mem_others_addLink {l : OtherLink} :
    l ∈ (addLink asset {} index link).others ↔
      l.index = index ∧ link.active = true ∧ toLowerCase link.collectionHex = l.collectionId ∧
        toLowerCase link.tokenHex = l.tokenId ∧ l.collectionId ≠ asset ∧ l.tokenId ≠ asset := by
  obtain ⟨i, collection, token⟩ := l
  simp only [addLink]
  split_ifs with hactive hcollection htoken <;> grind

theorem ordered_addLink (asset : Text) (index : ℕ) (link : LinkAt) :
    (addLink asset {} index link).companions.Pairwise (·.index < ·.index) ∧
      (addLink asset {} index link).others.Pairwise (·.index < ·.index) := by
  simp only [addLink]
  split_ifs <;> simp

end

/-! ## All slots -/

section

variable {reply : Simulate → Except JsError Value} {registryId asset : Text} {N : ℕ}
  {slot : ℕ → Option LinkAt}

theorem foldl_addSlot (asset : Text) (s : Scan) (slots : List (ℕ × Option LinkAt)) :
    slots.foldl (addSlot asset) s =
      ⟨s.companions ++ slots.flatMap fun x => (addSlot asset {} x).companions,
        s.others ++ slots.flatMap fun x => (addSlot asset {} x).others⟩ := by
  induction slots generalizing s with
  | nil => simp
  | cons x slots ih =>
    have hstep : addSlot asset s x = ⟨s.companions ++ (addSlot asset {} x).companions,
        s.others ++ (addSlot asset {} x).others⟩ := by
      obtain ⟨index, _ | link⟩ := x
      · simp [addSlot]
      · exact addLink_eq asset s index link
    rw [List.foldl_cons, ih, hstep, List.flatMap_cons, List.flatMap_cons, List.append_assoc,
      List.append_assoc]

/-- The slots up to `N`, with what is read of them. -/
def slotsUpTo (slot : ℕ → Option LinkAt) (N : ℕ) : List (ℕ × Option LinkAt) :=
  (List.range N).map fun i => (i, slot i)

/-- **What is read of a slot says whether it is active.** -/
theorem activeAt_iff {i : ℕ} {s : Option LinkAt} (hread : readSlot reply registryId i = .ok s)
    {collection token : Text} : ActiveAt reply registryId i collection token ↔
      ∃ link, s = some link ∧ link.active = true ∧ toLowerCase link.collectionHex = collection ∧
        toLowerCase link.tokenHex = token := by
  have hlink : ∀ link, s = some link → toLowerCase link.collectionHex = link.collectionHex ∧
      toLowerCase link.tokenHex = link.tokenHex ∧
        (link.active = true ↔ link.collectionHex ≠ zero32 ∧ link.tokenHex ≠ zero32) := by
    rintro link rfl
    obtain ⟨calldata, -, hread⟩ := bind_eq_ok hread
    obtain ⟨rd, -, hread⟩ := bind_eq_ok hread
    obtain ⟨text, -, hdecode⟩ := Option.bind_eq_some_iff.mp (Except.ok.inj hread)
    cases hd : decodeGetLinkAt text with
    | error e => rw [hd] at hdecode; cases hdecode
    | ok link' =>
      rw [hd] at hdecode
      obtain rfl := Option.some.inj hdecode
      exact decodeGetLinkAt_eq_ok hd
  constructor
  · rintro ⟨⟨link, hlinkread, rfl, rfl⟩, hc, ht⟩
    have hs : s = some link := Except.ok.inj (hread.symm.trans hlinkread)
    obtain ⟨hlc, hlt, hactive⟩ := hlink link hs
    exact ⟨link, hs, hactive.mpr ⟨hc, ht⟩, hlc, hlt⟩
  · rintro ⟨link, hs, hact, rfl, rfl⟩
    obtain ⟨hlc, hlt, hactive⟩ := hlink link hs
    rw [hlc, hlt]
    exact ⟨⟨link, hs ▸ hread, rfl, rfl⟩, (hactive.mp hact).1, (hactive.mp hact).2⟩

theorem mem_collected {γ : Type} (part : Scan → List γ) (hnil : part {} = []) {c : γ} :
    c ∈ (slotsUpTo slot N).flatMap (fun x => part (addSlot asset {} x)) ↔
      ∃ i < N, ∃ link, slot i = some link ∧ c ∈ part (addLink asset {} i link) := by
  simp only [slotsUpTo, List.flatMap_map, List.mem_flatMap, List.mem_range]
  refine exists_congr fun i => and_congr_right fun _ => ?_
  rw [addSlot]
  cases slot i with
  | none => exact iff_of_false (by rw [hnil]; exact List.not_mem_nil) (by rintro ⟨_, h, _⟩; cases h)
  | some link =>
    constructor
    · intro h
      exact ⟨link, rfl, h⟩
    · rintro ⟨_, h, hc⟩
      exact Option.some.inj h ▸ hc

theorem ordered_collected {γ : Type} (part : Scan → List γ) (index : γ → ℕ) (hnil : part {} = [])
    (hindex : ∀ i link, ∀ c ∈ part (addLink asset {} i link), index c = i)
    (hone : ∀ i link, (part (addLink asset {} i link)).Pairwise (index · < index ·)) :
    ((slotsUpTo slot N).flatMap fun x => part (addSlot asset {} x)).Pairwise
      (index · < index ·) := by
  have hadd (i : ℕ) : ∀ c ∈ part (addSlot asset {} (i, slot i)), index c = i := by
    rw [addSlot]
    cases slot i with
    | none => rw [hnil]; exact List.forall_mem_nil _
    | some link => exact hindex i link
  rw [slotsUpTo, List.flatMap_map, List.pairwise_flatMap]
  refine ⟨fun i _ => ?_, List.pairwise_lt_range.imp fun {i j} hij c hc d hd => ?_⟩
  · rw [addSlot]
    cases slot i with
    | none => rw [hnil]; exact List.Pairwise.nil
    | some link => exact hone i link
  · rw [hadd i c hc, hadd j d hd]
    exact hij

/-- **The companions a scan collects.** -/
theorem mem_companions_iff (hslot : ∀ i < N, readSlot reply registryId i = .ok (slot i))
    {p : CompanionPeer} :
    p ∈ ((slotsUpTo slot N).foldl (addSlot asset) {}).companions ↔
      p.index < N ∧ ActiveAt reply registryId p.index p.collectionId p.tokenId ∧ p.IsOf asset := by
  rw [foldl_addSlot]
  refine (mem_collected Scan.companions rfl).trans ?_
  constructor
  · rintro ⟨i, hi, link, hs, hp⟩
    obtain ⟨rfl, hact, hc, ht, hof⟩ := mem_companions_addLink.mp hp
    exact ⟨hi, (activeAt_iff (hslot _ hi)).mpr ⟨link, hs, hact, hc, ht⟩, hof⟩
  · rintro ⟨hi, hactive, hof⟩
    obtain ⟨link, hs, hact, hc, ht⟩ := (activeAt_iff (hslot _ hi)).mp hactive
    exact ⟨p.index, hi, link, hs, mem_companions_addLink.mpr ⟨rfl, hact, hc, ht, hof⟩⟩

/-- **The other links a scan collects.** -/
theorem mem_others_iff (hslot : ∀ i < N, readSlot reply registryId i = .ok (slot i))
    {l : OtherLink} :
    l ∈ ((slotsUpTo slot N).foldl (addSlot asset) {}).others ↔
      l.index < N ∧ ActiveAt reply registryId l.index l.collectionId l.tokenId ∧
        l.collectionId ≠ asset ∧ l.tokenId ≠ asset := by
  rw [foldl_addSlot]
  refine (mem_collected Scan.others rfl).trans ?_
  constructor
  · rintro ⟨i, hi, link, hs, hl⟩
    obtain ⟨rfl, hact, hc, ht, hne⟩ := mem_others_addLink.mp hl
    exact ⟨hi, (activeAt_iff (hslot _ hi)).mpr ⟨link, hs, hact, hc, ht⟩, hne⟩
  · rintro ⟨hi, hactive, hne⟩
    obtain ⟨link, hs, hact, hc, ht⟩ := (activeAt_iff (hslot _ hi)).mp hactive
    exact ⟨l.index, hi, link, hs, mem_others_addLink.mpr ⟨rfl, hact, hc, ht, hne⟩⟩

theorem ordered_companions :
    ((slotsUpTo slot N).foldl (addSlot asset) {}).companions.Pairwise (·.index < ·.index) := by
  rw [foldl_addSlot]
  exact ordered_collected Scan.companions CompanionPeer.index rfl
    (fun _ _ _ hc => (mem_companions_addLink.mp hc).1) fun i link => (ordered_addLink asset i link).1

theorem ordered_others :
    ((slotsUpTo slot N).foldl (addSlot asset) {}).others.Pairwise (·.index < ·.index) := by
  rw [foldl_addSlot]
  exact ordered_collected Scan.others OtherLink.index rfl
    (fun _ _ _ hc => (mem_others_addLink.mp hc).1) fun i link => (ordered_addLink asset i link).2

/-! ## The listing -/

theorem managedOf_eq_some {l : OtherLink} {m : ManagedLink} :
    managedOf reply registryId asset l = some m ↔
      readClaimer reply registryId l.collectionId = some asset ∧ m = { l with claimer := asset } := by
  rw [managedOf, Option.ite_none_right_eq_some, Option.some.injEq, eq_comm (a := m)]

/-- An asset without companions is on neither side of an active link. -/
theorem ne_of_companions_eq_nil (hslot : ∀ i < N, readSlot reply registryId i = .ok (slot i))
    (hnone : ((slotsUpTo slot N).foldl (addSlot asset) {}).companions = []) {i : ℕ} (hi : i < N)
    {collection token : Text} (hactive : ActiveAt reply registryId i collection token) :
    collection ≠ asset ∧ token ≠ asset := by
  have hnot (p : CompanionPeer) (hp : p.index < N ∧
      ActiveAt reply registryId p.index p.collectionId p.tokenId ∧ p.IsOf asset) : False := by
    have hmem := (mem_companions_iff hslot).mpr hp
    rw [hnone] at hmem
    cases hmem
  have hcollection : collection ≠ asset := fun hc =>
    hnot ⟨i, .fungible, token, collection, token⟩ ⟨hi, hactive, Or.inl ⟨hc, rfl, rfl⟩⟩
  exact ⟨hcollection, fun ht =>
    hnot ⟨i, .collection, collection, collection, token⟩
      ⟨hi, hactive, Or.inr ⟨hcollection, ht, rfl, rfl⟩⟩⟩

/-- **The listing of the reads is exact.** -/
theorem listsExactly_listingOf (hslot : ∀ i < N, readSlot reply registryId i = .ok (slot i))
    {count : ℕ} {maxScan : Number} (hN : ∀ i, i < N ↔ Scanned count maxScan i)
    (includeManaged : Bool) (slotCount : Number) :
    ListsExactly reply registryId count maxScan includeManaged asset
      (listingOf reply registryId includeManaged asset slotCount (slotsUpTo slot N)) where
  companions p := by rw [← hN]; exact mem_companions_iff hslot
  companions_ordered := ordered_companions
  managed m := by
    rw [← hN, listingOf]
    by_cases hm : includeManaged ∧ ((slotsUpTo slot N).foldl (addSlot asset) {}).companions = []
    · rw [if_pos hm, List.mem_filterMap, and_iff_right hm]
      constructor
      · rintro ⟨l, hl, hml⟩
        obtain ⟨hclaimer, rfl⟩ := managedOf_eq_some.mp hml
        obtain ⟨hi, hactive, -⟩ := (mem_others_iff hslot).mp hl
        exact ⟨hi, hactive, hclaimer, rfl⟩
      · rintro ⟨hi, hactive, hclaimer, rfl⟩
        refine ⟨m.toOtherLink, (mem_others_iff hslot).mpr ⟨hi, hactive, ?_⟩,
          managedOf_eq_some.mpr ⟨hclaimer, rfl⟩⟩
        exact ne_of_companions_eq_nil hslot hm.2 hi hactive
    · rw [if_neg hm]
      exact iff_of_false List.not_mem_nil fun h => hm h.1
  managed_ordered := by
    rw [listingOf]
    by_cases hm : includeManaged ∧ ((slotsUpTo slot N).foldl (addSlot asset) {}).companions = []
    · rw [if_pos hm]
      refine List.Pairwise.filterMap _ (fun l l' hlt m hml m' hml' => ?_) ordered_others
      obtain ⟨-, rfl⟩ := managedOf_eq_some.mp hml
      obtain ⟨-, rfl⟩ := managedOf_eq_some.mp hml'
      exact hlt
    · rw [if_neg hm]
      exact List.Pairwise.nil

/-- **An id is listed for another** at the slots that link the two. -/
theorem listed_iff {count : ℕ} {maxScan : Number} {includeManaged : Bool} {r : Listing}
    (h : ListsExactly reply registryId count maxScan includeManaged asset r) {peer : Text}
    (hne : asset ≠ peer) (i : ℕ) :
    (∃ p ∈ r.companions, p.index = i ∧ p.peerId = peer) ↔ Scanned count maxScan i ∧
      (ActiveAt reply registryId i asset peer ∨ ActiveAt reply registryId i peer asset) := by
  constructor
  · rintro ⟨p, hp, rfl, rfl⟩
    obtain ⟨hscan, hactive, ⟨rfl, -, hpeer⟩ | ⟨-, rfl, -, hpeer⟩⟩ := (h.companions p).mp hp
    · rw [hpeer]
      exact ⟨hscan, Or.inl hactive⟩
    · rw [hpeer]
      exact ⟨hscan, Or.inr hactive⟩
  · rintro ⟨hscan, hactive | hactive⟩
    · exact ⟨⟨i, .fungible, peer, asset, peer⟩,
        (h.companions _).mpr ⟨hscan, hactive, Or.inl ⟨rfl, rfl, rfl⟩⟩, rfl, rfl⟩
    · exact ⟨⟨i, .collection, peer, peer, asset⟩,
        (h.companions _).mpr ⟨hscan, hactive, Or.inr ⟨hne.symm, rfl, rfl, rfl⟩⟩, rfl, rfl⟩

/-! ## What the code returns -/

theorem mapM_slotAt (hslot : ∀ i < N, readSlot reply registryId i = .ok (slot i)) :
    (List.range N).mapM (slotAt reply registryId) = .ok (slotsUpTo slot N) := by
  rw [mapM_eq_ok_iff, slotsUpTo, List.map_map]
  refine List.map_congr_left fun i hi => ?_
  rw [slotAt, hslot i (List.mem_range.mp hi)]
  rfl

/-- **The code returns a listing** iff no read of a slot throws. -/
theorem listing_resolves_iff {assetId : Text} {n : ℕ}
    (hasset : normalizeAccountId assetId = some asset)
    (hcount : readCount reply registryId = .ok n) (maxScan : Number) (includeManaged : Bool) :
    (∃ r, Async.eval reply (listLinkedCompanionsForAsset
        { registryId, assetId, maxScan, includeManaged }) = .ok r) ↔
      ∀ i < rounds (scanCount n maxScan), ∃ s, readSlot reply registryId i = .ok s := by
  obtain ⟨slotCount, heval⟩ := eval_listLinkedCompanions hasset hcount maxScan includeManaged
  have hslots := exists_mapM_eq_ok_iff (f := slotAt reply registryId)
    (l := List.range (rounds (scanCount n maxScan)))
  have hone (i : ℕ) : (∃ x, slotAt reply registryId i = .ok x) ↔
      ∃ s, readSlot reply registryId i = .ok s := by
    rw [slotAt]
    cases readSlot reply registryId i with
    | error e => exact iff_of_false (by rintro ⟨_, h⟩; cases h) (by rintro ⟨_, h⟩; cases h)
    | ok s => exact iff_of_true ⟨_, rfl⟩ ⟨_, rfl⟩
  rw [heval]
  simp only [List.mem_range, hone] at hslots
  rw [← hslots]
  cases (List.range (rounds (scanCount n maxScan))).mapM (slotAt reply registryId) with
  | error e => exact iff_of_false (by rintro ⟨_, h⟩; cases h) (by rintro ⟨_, h⟩; cases h)
  | ok slots => exact iff_of_true ⟨_, rfl⟩ ⟨_, rfl⟩

theorem readCount_lt {n : ℕ} (h : readCount reply registryId = .ok n) : n < 2 ^ 64 := by
  obtain ⟨countData, -, h⟩ := bind_eq_ok h
  cases countData with
  | none =>
    obtain rfl := Except.ok.inj h
    omega
  | some rd => exact decodeLinksCount_lt h

/-- A slot whose index is no safe integer cannot be asked for. -/
theorem readSlot_two_pow : readSlot reply registryId (2 ^ 53) = .error .rangeError := by
  rw [readSlot, encodeGetLinkAt_ofNat, if_neg (lt_irrefl _)]
  rfl

structure ExactAndSymmetric (reply : Simulate → Except JsError Value) (registryId : Text)
    (count : ℕ) (maxScan : Number) (listing : Bool → Text → Listing) : Prop where
  /-- The code returns them. -/
  returned (includeManaged : Bool) {assetId asset : Text}
    (h : normalizeAccountId assetId = some asset) (tr : Trace Simulated) :
    (Async.exec (node reply)
      (listLinkedCompanionsForAsset { registryId, assetId, maxScan, includeManaged }) tr).1 =
        .ok (listing includeManaged assetId)
  exact (includeManaged : Bool) {assetId asset : Text}
    (h : normalizeAccountId assetId = some asset) :
    ListsExactly reply registryId count maxScan includeManaged asset
      (listing includeManaged assetId)
  /-- Of two ids, each is listed for the other at the same slots. -/
  symmetric (m m' : Bool) {idA idB a b : Text} (ha : normalizeAccountId idA = some a)
    (hb : normalizeAccountId idB = some b) (hne : a ≠ b) (i : ℕ) :
    (∃ p ∈ (listing m idA).companions, p.index = i ∧ p.peerId = b) ↔
      ∃ p ∈ (listing m' idB).companions, p.index = i ∧ p.peerId = a

def slotOf (reply : Simulate → Except JsError Value) (registryId : Text) (i : ℕ) :
    Option LinkAt :=
  (readSlot reply registryId i).toOption.join

/-- **The companions are exact and symmetric** when no read of a slot throws. -/
theorem listLinkedCompanions_exact {maxScan : Number} {n : ℕ}
    (hcount : readCount reply registryId = .ok n)
    (hreads : ∀ i, Scanned n maxScan i → ∃ s, readSlot reply registryId i = .ok s) :
    ∃ listing, ExactAndSymmetric reply registryId n maxScan listing := by
  have hsafe : ¬ Scanned n maxScan (2 ^ 53) := by
    intro h
    obtain ⟨s, hs⟩ := hreads _ h
    rw [readSlot_two_pow] at hs
    cases hs
  have hN := lt_rounds_scanCount (readCount_lt hcount) hsafe
  have hslot : ∀ i < rounds (scanCount n maxScan),
      readSlot reply registryId i = .ok (slotOf reply registryId i) := by
    intro i hi
    obtain ⟨s, hs⟩ := hreads i ((hN i).mp hi)
    rw [slotOf, hs]
    rfl
  have hlist (includeManaged : Bool) (assetId : Text) : ∃ r, ∀ asset,
      normalizeAccountId assetId = some asset →
        Async.eval reply (listLinkedCompanionsForAsset
          { registryId, assetId, maxScan, includeManaged }) = .ok r ∧
        ListsExactly reply registryId n maxScan includeManaged asset r := by
    cases hasset : normalizeAccountId assetId with
    | none => exact ⟨{}, fun _ h => by cases h⟩
    | some asset =>
      obtain ⟨slotCount, heval⟩ := eval_listLinkedCompanions hasset hcount maxScan includeManaged
      rw [mapM_slotAt hslot] at heval
      refine ⟨_, fun _ h => ⟨heval, ?_⟩⟩
      obtain rfl := Option.some.inj h
      exact listsExactly_listingOf hslot hN includeManaged slotCount
  choose listing hlisting using hlist
  refine ⟨listing, ⟨fun m _ _ h tr => ?_, fun m _ _ h => (hlisting m _ _ h).2, ?_⟩⟩
  · rw [exec_node]
    exact (hlisting m _ _ h).1
  · intro m m' idA idB a b ha hb hne i
    rw [listed_iff (hlisting m _ _ ha).2 hne, listed_iff (hlisting m' _ _ hb).2 hne.symm, or_comm]

end

/-! ## A registry with four slots -/

namespace FourSlots

def registryId : Text := "0x" ++ List.replicate 64 'e'

def collection : Text := List.replicate 64 'a'

def token : Text := List.replicate 64 'b'

def returned (data : Text) : Except JsError Value :=
  .ok (.object [("success", .bool true), ("return_data", .string ("0x" ++ data))])

/-- A link, a tombstone, a slot whose call does not succeed, and one with too little data. -/
def reply (q : Simulate) : Except JsError Value :=
  if q.calldata = encodeLinksCount then returned (padHex 64 4)
  else if encodeGetLinkAt (.ofNat 0) = .ok q.calldata then returned (collection ++ token)
  else if encodeGetLinkAt (.ofNat 1) = .ok q.calldata then returned (List.replicate 128 '0')
  else if encodeGetLinkAt (.ofNat 3) = .ok q.calldata then returned (padHex 64 7)
  else .ok (.object [("success", .bool false)])

end FourSlots

theorem listLinkedCompanions_exact_fourSlots : ∃ listing,
    ExactAndSymmetric FourSlots.reply FourSlots.registryId 4 maxScanDefault listing := by
  refine listLinkedCompanions_exact (by decide +kernel) fun i hi => ?_
  have hlt : i < 4 := hi.1
  obtain rfl | rfl | rfl | rfl : i = 0 ∨ i = 1 ∨ i = 2 ∨ i = 3 := by omega
  · exact ⟨some ⟨"0x" ++ FourSlots.collection, "0x" ++ FourSlots.token, true⟩, by decide +kernel⟩
  · exact ⟨some ⟨zero32, zero32, false⟩, by decide +kernel⟩
  · exact ⟨none, by decide +kernel⟩
  · exact ⟨none, by decide +kernel⟩

namespace ThrowingSlot

/-- Two slots: the call for the first one throws, and the second one has a link. -/
def reply (q : Simulate) : Except JsError Value :=
  if q.calldata = encodeLinksCount then FourSlots.returned (padHex 64 2)
  else if encodeGetLinkAt (.ofNat 1) = .ok q.calldata then
    FourSlots.returned (FourSlots.collection ++ FourSlots.token)
  else .error (.error "fetch failed")

theorem readCount_eq : readCount reply FourSlots.registryId = .ok 2 := by decide +kernel

theorem readSlot_zero : readSlot reply FourSlots.registryId 0 = .error (.error "fetch failed") := by
  decide +kernel

theorem readSlot_one : readSlot reply FourSlots.registryId 1 =
    .ok (some ⟨"0x" ++ FourSlots.collection, "0x" ++ FourSlots.token, true⟩) := by decide +kernel

end ThrowingSlot

open ThrowingSlot in
/-- **A slot whose call throws loses the others**: a link in the second slot is not listed. -/
theorem throwingSlot_not_listed :
    readCount reply FourSlots.registryId = .ok 2 ∧ Scanned 2 maxScanDefault 1 ∧
      ActiveAt reply FourSlots.registryId 1 ("0x" ++ FourSlots.collection)
        ("0x" ++ FourSlots.token) ∧
      ¬ ∃ r, ∀ tr, (Async.exec (node reply) (listLinkedCompanionsForAsset
        { registryId := FourSlots.registryId, assetId := FourSlots.collection }) tr).1 = .ok r := by
  have hscanned {i : ℕ} (hi : i < 2) : Scanned 2 maxScanDefault i := by
    refine ⟨hi, Or.inr (decide_eq_true ?_)⟩
    exact Nat.cast_lt.mpr (hi.trans (by decide))
  refine ⟨readCount_eq, hscanned (by decide), ⟨⟨_, readSlot_one, rfl, rfl⟩, by decide, by decide⟩, ?_⟩
  rintro ⟨r, hr⟩
  have heval := hr []
  rw [exec_node] at heval
  have hasset : normalizeAccountId FourSlots.collection = some ("0x" ++ FourSlots.collection) := by
    decide
  have hslots := (listing_resolves_iff hasset readCount_eq maxScanDefault true).mp ⟨r, heval⟩
  have hsafe : ¬ Scanned 2 maxScanDefault (2 ^ 53) := fun h => absurd h.1 (by decide)
  obtain ⟨s, hs⟩ := hslots 0
    ((lt_rounds_scanCount (readCount_lt readCount_eq) hsafe 0).mpr (hscanned (by decide)))
  rw [readSlot_zero] at hs
  cases hs

end BoingObserver.Links
