import BoingObserver.Js.Map
import BoingObserver.Links.Registry

/-!
# Linked companions

`listLinkedCompanionsForAsset` of `linked-nft-token-registry.ts`: a scan of the slots of
the registry for an asset, and a second pass for the links that the asset manages.

* `eval_listLinkedCompanions`: the listing is a function of the reads of the slots, and
  throws iff one of them does.
-/

namespace BoingObserver.Links

open Js Rpc Oracle

/-! ## The listing -/

inductive CompanionRole
  | collection
  | fungible
  deriving DecidableEq

structure CompanionPeer where
  /-- Registry slot index. -/
  index : ℕ
  /-- Role of the peer relative to the queried asset. -/
  peerRole : CompanionRole
  peerId : Text
  collectionId : Text
  tokenId : Text
  deriving DecidableEq

/-- A link that is not the queried account's. -/
structure OtherLink where
  index : ℕ
  collectionId : Text
  tokenId : Text
  deriving DecidableEq

structure ManagedLink extends OtherLink where
  claimer : Text
  deriving DecidableEq

structure Listing where
  companions : List CompanionPeer := []
  managedLinks : List ManagedLink := []
  slotCount : Number := .ofNat 0
  deriving DecidableEq

structure ListOpts where
  registryId : Text
  assetId : Text
  maxScan : Number := maxScanDefault
  /-- Also return the links that `assetId` has claimed (wallet view). -/
  includeManaged : Bool := true

structure Scan where
  companions : List CompanionPeer := []
  others : List OtherLink := []

/-- `Number(count)` under the cap. -/
def scanCount (count : ℕ) (maxScan : Number) : Number :=
  let count :=
    match toDouble count with
    | .finite q => if q < 0 then .ofNat 0 else .finite q
    | _ => .ofNat 0
  if maxScan.lt count then maxScan else count

/-- The rounds of `for (let i = 0; i < count; i += 1)`, for a count that is not `∞`. -/
def rounds : Number → ℕ
  | .finite q => ⌈q⌉₊
  | _ => 0

/-- An active link goes to the companions or to the others. -/
def addLink (asset : Text) (s : Scan) (index : ℕ) (link : LinkAt) : Scan :=
  if !link.active then s
  else
    let collectionId := toLowerCase link.collectionHex
    let tokenId := toLowerCase link.tokenHex
    if collectionId = asset then
      { s with companions := s.companions ++
          [{ index, peerRole := .fungible, peerId := tokenId, collectionId, tokenId }] }
    else if tokenId = asset then
      { s with companions := s.companions ++
          [{ index, peerRole := .collection, peerId := collectionId, collectionId, tokenId }] }
    else { s with others := s.others ++ [{ index, collectionId, tokenId }] }

section

variable (registryId asset : Text)

/-- One round of the scan; a slot that cannot be read is passed over. -/
def scanSlot (s : Scan) (index : ℕ) : Reads Scan := do
  let calldata ← Async.ofExcept (encodeGetLinkAt (.ofNat index))
  match ← simulateReturnData registryId calldata with
  | none => return s
  | some at_ =>
    match decodeGetLinkAt at_ with
    | .error _ => return s
    | .ok link => return addLink asset s index link

/-- The claimer of an asset, with the cache after it; a read that throws gives none. -/
def claimerOf (cache : Map Text (Option Text)) (id : Text) :
    Reads (Option Text × Map Text (Option Text)) :=
  match cache.get id with
  | some c => return (c, cache)
  | none => do
    let rd ← Async.attempt do
      let calldata ← Async.ofExcept (encodeGetAssetClaimer id)
      simulateReturnData registryId calldata
    let c :=
      match rd with
      | .ok rd => decodeAssetClaimer rd
      | .error _ => none
    return (c, cache.set id c)

def manageLink (s : Map Text (Option Text) × List ManagedLink) (l : OtherLink) :
    Reads (Map Text (Option Text) × List ManagedLink) := do
  let (c, cache) ← claimerOf registryId s.1 l.collectionId
  return (cache, if c = some asset then s.2 ++ [{ l with claimer := asset }] else s.2)

end

def listLinkedCompanionsForAsset (opts : ListOpts) : Reads Listing :=
  match normalizeAccountId opts.assetId with
  | none => return {}
  | some asset => do
    match ← simulateReturnData opts.registryId encodeLinksCount with
    | none => return {}
    | some countData =>
      let n ← Async.ofExcept (decodeLinksCount countData)
      let slotCount := scanCount n opts.maxScan
      let scan ← (List.range (rounds slotCount)).foldlM (scanSlot opts.registryId asset) {}
      if opts.includeManaged ∧ scan.companions = [] ∧ scan.others ≠ [] then
        let managed ← scan.others.foldlM (manageLink opts.registryId asset) (Map.empty, [])
        return { companions := scan.companions, managedLinks := managed.2, slotCount }
      else return { companions := scan.companions, slotCount }

/-! ## Slots below the count and the cap -/

/-- The index is below the cap; a cap that is no number caps nothing. -/
def BelowCap (maxScan : Number) (i : ℕ) : Prop :=
  maxScan = .nan ∨ (Number.ofNat i).lt maxScan = true

def Scanned (count : ℕ) (maxScan : Number) (i : ℕ) : Prop := i < count ∧ BelowCap maxScan i

theorem BelowCap.mono {maxScan : Number} {i j : ℕ} (h : BelowCap maxScan i) (hji : j ≤ i) :
    BelowCap maxScan j := by
  rcases h with h | h
  · exact Or.inl h
  · refine Or.inr ?_
    cases maxScan with
    | finite q =>
      exact decide_eq_true (lt_of_le_of_lt (Nat.cast_le.mpr hji) (of_decide_eq_true h))
    | nan => exact h
    | infinite negative => exact h

/-- **The rounds under a cap.** -/
theorem lt_rounds_iff (q : ℚ) (maxScan : Number) (i : ℕ) :
    i < rounds (if maxScan.lt (.finite q) then maxScan else .finite q) ↔
      (i : ℚ) < q ∧ BelowCap maxScan i := by
  cases maxScan with
  | finite a =>
    have hcap : BelowCap (.finite a) i ↔ (i : ℚ) < a := by
      rw [BelowCap, or_iff_right (by simp)]
      exact decide_eq_true_iff
    rw [hcap, Number.finite_lt_finite]
    by_cases ha : a < q
    · rw [if_pos (decide_eq_true ha), rounds, Nat.lt_ceil]
      exact ⟨fun h => ⟨h.trans ha, h⟩, And.right⟩
    · rw [if_neg (mt of_decide_eq_true ha), rounds, Nat.lt_ceil]
      exact ⟨fun h => ⟨h, h.trans_le (not_lt.mp ha)⟩, And.left⟩
  | nan =>
    have hcap : BelowCap .nan i := Or.inl rfl
    rw [and_iff_left hcap]
    exact Nat.lt_ceil
  | infinite negative =>
    cases negative with
    | true =>
      have hcap : ¬ BelowCap (.infinite true) i := by
        rintro (h | h)
        · cases h
        · exact Bool.false_ne_true h
      exact iff_of_false (Nat.not_lt_zero i) fun h => hcap h.2
    | false =>
      have hcap : BelowCap (.infinite false) i := Or.inr rfl
      rw [and_iff_left hcap]
      exact Nat.lt_ceil

theorem scanCount_of_toDouble {n : ℕ} {q : ℚ} (h : toDouble n = .finite q) (hq : 0 ≤ q)
    (maxScan : Number) :
    scanCount n maxScan = if maxScan.lt (.finite q) then maxScan else .finite q := by
  simp only [scanCount, h, if_neg (not_lt.mpr hq)]

theorem toDouble_two_pow : toDouble (2 ^ 53 : ℕ) = .ofNat (2 ^ 53) := by decide +kernel

/-- **The slots that the loop goes over**, when their indices are safe integers. -/
theorem lt_rounds_scanCount {n : ℕ} (hn : n < 2 ^ 64) {maxScan : Number}
    (hsafe : ¬ Scanned n maxScan (2 ^ 53)) (i : ℕ) :
    i < rounds (scanCount n maxScan) ↔ Scanned n maxScan i := by
  by_cases hle : n ≤ 2 ^ 53
  · have hexact : toDouble n = .finite n := by
      rcases hle.lt_or_eq with hlt | rfl
      · exact toDouble_natCast hlt
      · exact toDouble_two_pow
    rw [scanCount_of_toDouble hexact (Nat.cast_nonneg n), lt_rounds_iff, Nat.cast_lt, Scanned]
  · obtain ⟨q, hq, hge⟩ := toDouble_of_ge (not_le.mp hle).le hn
    rw [scanCount_of_toDouble hq (le_trans (by norm_num) hge), lt_rounds_iff, Scanned]
    -- the cap is not above 2^53, so neither count matters
    refine and_congr_left fun hcap => ?_
    have hi : i < 2 ^ 53 := by
      by_contra hge
      exact hsafe ⟨not_le.mp hle, hcap.mono (not_lt.mp hge)⟩
    have hiq : (i : ℚ) < q := lt_of_lt_of_le (by exact_mod_cast hi) hge
    exact iff_of_true hiq (hi.trans (not_le.mp hle))

/-! ## Fixed answers -/

section

variable (reply : Simulate → Except JsError Value) (registryId : Text)

def node : Env Simulated := fun _ q => reply q

def readData (calldata : Text) : Except JsError (Option Text) :=
  (reply ⟨registryId, calldata⟩).map returnData

/-- The count of the registry; a count that is not given is zero. -/
def readCount : Except JsError ℕ := do
  match ← readData reply registryId encodeLinksCount with
  | none => return 0
  | some countData => decodeLinksCount countData

/-- What a slot says; none when its read does not succeed or is too short. -/
def readSlot (index : ℕ) : Except JsError (Option LinkAt) := do
  let calldata ← encodeGetLinkAt (.ofNat index)
  let rd ← readData reply registryId calldata
  return rd.bind fun rd => (decodeGetLinkAt rd).toOption

/-- The claimer of an asset; none when its read throws. -/
def readClaimer (id : Text) : Option Text :=
  match encodeGetAssetClaimer id >>= readData reply registryId with
  | .ok rd => decodeAssetClaimer rd
  | .error _ => none

end

def addSlot (asset : Text) (s : Scan) (slot : ℕ × Option LinkAt) : Scan :=
  match slot.2 with
  | some link => addLink asset s slot.1 link
  | none => s

section

variable {reply : Simulate → Except JsError Value} {registryId asset : Text}

theorem exec_node {α : Type} (p : Reads α) (tr : Trace Simulated) :
    (Async.exec (node reply) p tr).1 = Async.eval reply p :=
  Async.exec_fixed p tr

theorem eval_simulateReturnData (calldata : Text) :
    Async.eval reply (simulateReturnData registryId calldata) =
      readData reply registryId calldata := by
  rw [simulateReturnData, Async.eval_bind, readData]
  change (reply ⟨registryId, calldata⟩ >>= fun sim => .ok (returnData sim)) = _
  cases reply ⟨registryId, calldata⟩ with
  | error e => rfl
  | ok sim => rfl

/-- **A round of the scan** reads a slot and adds what it says. -/
theorem eval_scanSlot (s : Scan) (index : ℕ) :
    Async.eval reply (scanSlot registryId asset s index) =
      (readSlot reply registryId index).map fun slot => addSlot asset s (index, slot) := by
  rw [scanSlot, Async.eval_bind, Async.eval_ofExcept, readSlot]
  cases encodeGetLinkAt (.ofNat index) with
  | error e => rfl
  | ok calldata =>
    refine (Async.eval_bind _ _).trans ?_
    rw [eval_simulateReturnData]
    change _ = Except.map _ (readData reply registryId calldata >>= fun rd =>
      pure (rd.bind fun rd => (decodeGetLinkAt rd).toOption))
    cases readData reply registryId calldata with
    | error e => rfl
    | ok rd =>
      cases rd with
      | none => rfl
      | some rd =>
        change Async.eval reply (match decodeGetLinkAt rd with
          | .error _ => return s
          | .ok link => return addLink asset s index link) =
            .ok (addSlot asset s (index, (decodeGetLinkAt rd).toOption))
        cases decodeGetLinkAt rd with
        | error e => rfl
        | ok link => rfl

/-! ## The claimers -/

def Cached (reply : Simulate → Except JsError Value) (registryId : Text)
    (cache : Map Text (Option Text)) : Prop :=
  ∀ id c, cache.get id = some c → c = readClaimer reply registryId id

theorem cached_empty : Cached reply registryId Map.empty := by
  intro id c h
  cases h

/-- **The cache changes no claimer.** -/
theorem eval_claimerOf {cache : Map Text (Option Text)} (h : Cached reply registryId cache)
    (id : Text) :
    ∃ cache', Cached reply registryId cache' ∧
      Async.eval reply (claimerOf registryId cache id) =
        .ok (readClaimer reply registryId id, cache') := by
  rw [claimerOf]
  cases hget : cache.get id with
  | some c => exact ⟨cache, h, by rw [← h id c hget]; rfl⟩
  | none =>
    refine ⟨cache.set id (readClaimer reply registryId id), ?_, ?_⟩
    · intro id' c hc
      rw [Map.get_set] at hc
      split at hc
      next heq => rw [← Option.some.inj hc, heq]
      next => exact h id' c hc
    · refine (Async.eval_bind _ _).trans ?_
      rw [Async.eval_attempt, Async.eval_bind, Async.eval_ofExcept,
        funext eval_simulateReturnData]
      rfl

/-- The managed link of another link, if its collection's claimer is the asset. -/
def managedOf (reply : Simulate → Except JsError Value) (registryId asset : Text)
    (l : OtherLink) : Option ManagedLink :=
  if readClaimer reply registryId l.collectionId = some asset then some { l with claimer := asset }
  else none

/-- **The second pass** gives the links whose collection's claimer is the asset. -/
theorem eval_manageLinks {cache : Map Text (Option Text)} (h : Cached reply registryId cache)
    (managed : List ManagedLink) (ls : List OtherLink) :
    ∃ cache', Async.eval reply (ls.foldlM (manageLink registryId asset) (cache, managed)) =
      .ok (cache', managed ++ ls.filterMap (managedOf reply registryId asset)) := by
  rw [Async.eval_foldlM]
  induction ls generalizing cache managed with
  | nil => exact ⟨cache, by rw [List.filterMap_nil, List.append_nil]; rfl⟩
  | cons l ls ih =>
    obtain ⟨cache₁, h₁, heval⟩ := eval_claimerOf h l.collectionId
    have hround : Async.eval reply (manageLink registryId asset (cache, managed) l) =
        .ok (cache₁, managed ++ (managedOf reply registryId asset l).toList) := by
      refine (Async.eval_bind _ _).trans ?_
      rw [heval, managedOf]
      change Except.ok (cache₁, if readClaimer reply registryId l.collectionId = some asset then _
        else managed) = _
      by_cases hc : readClaimer reply registryId l.collectionId = some asset
      · rw [if_pos hc, if_pos hc]
        rfl
      · rw [if_neg hc, if_neg hc, Option.toList_none, List.append_nil]
    obtain ⟨cache', hrest⟩ := ih h₁ (managed ++ (managedOf reply registryId asset l).toList)
    refine ⟨cache', ?_⟩
    rw [List.foldlM_cons, hround]
    refine hrest.trans ?_
    rw [List.append_assoc, List.filterMap_cons]
    cases managedOf reply registryId asset l with
    | none => rfl
    | some m => rfl

/-! ## The listing of the reads -/

def listingOf (reply : Simulate → Except JsError Value) (registryId : Text)
    (includeManaged : Bool) (asset : Text) (slotCount : Number)
    (slots : List (ℕ × Option LinkAt)) : Listing where
  companions := (slots.foldl (addSlot asset) {}).companions
  managedLinks :=
    if includeManaged ∧ (slots.foldl (addSlot asset) {}).companions = [] then
      (slots.foldl (addSlot asset) {}).others.filterMap (managedOf reply registryId asset)
    else []
  slotCount

def slotAt (reply : Simulate → Except JsError Value) (registryId : Text) (index : ℕ) :
    Except JsError (ℕ × Option LinkAt) :=
  (readSlot reply registryId index).map fun slot => (index, slot)

theorem eval_scan (N : ℕ) :
    Async.eval reply ((List.range N).foldlM (scanSlot registryId asset) {}) =
      ((List.range N).mapM (slotAt reply registryId)).map fun slots =>
        slots.foldl (addSlot asset) {} := by
  rw [Async.eval_foldlM, ← foldlM_map]
  congr 1
  funext s index
  rw [eval_scanSlot, slotAt]
  cases readSlot reply registryId index with
  | error e => rfl
  | ok slot => rfl

theorem rounds_zero (maxScan : Number) : rounds (scanCount 0 maxScan) = 0 := by
  refine Nat.eq_zero_of_not_pos fun hpos => ?_
  rw [scanCount_of_toDouble (toDouble_natCast (by omega)) (Nat.cast_nonneg 0),
    lt_rounds_iff] at hpos
  exact lt_irrefl _ hpos.1

/-- **The listing is a function of the reads of the slots.** -/
theorem eval_listLinkedCompanions {assetId : Text} {n : ℕ}
    (hasset : normalizeAccountId assetId = some asset)
    (hcount : readCount reply registryId = .ok n) (maxScan : Number) (includeManaged : Bool) :
    ∃ slotCount, Async.eval reply (listLinkedCompanionsForAsset
        { registryId, assetId, maxScan, includeManaged }) =
      ((List.range (rounds (scanCount n maxScan))).mapM (slotAt reply registryId)).map
        (listingOf reply registryId includeManaged asset slotCount) := by
  rw [readCount] at hcount
  obtain ⟨countData, hdata, hcount⟩ := bind_eq_ok hcount
  rw [listLinkedCompanionsForAsset, hasset]
  dsimp only
  rw [Async.eval_bind, eval_simulateReturnData, hdata]
  cases countData with
  | none =>
    obtain rfl := Except.ok.inj hcount
    refine ⟨.ofNat 0, ?_⟩
    rw [rounds_zero]
    change Except.ok _ = Except.ok (listingOf reply registryId includeManaged asset _ [])
    rw [listingOf]
    split <;> rfl
  | some rd =>
    refine ⟨scanCount n maxScan, ?_⟩
    refine (Async.eval_bind _ _).trans ?_
    rw [Async.eval_ofExcept, show decodeLinksCount rd = .ok n from hcount]
    refine (Async.eval_bind _ _).trans ?_
    rw [eval_scan]
    cases (List.range (rounds (scanCount n maxScan))).mapM (slotAt reply registryId) with
    | error e => rfl
    | ok slots =>
      have hpass := @eval_manageLinks reply registryId asset Map.empty cached_empty []
        (slots.foldl (addSlot asset) {}).others
      obtain ⟨cache, hpass⟩ := hpass
      change Async.eval reply (if includeManaged ∧
        (slots.foldl (addSlot asset) {}).companions = [] ∧
          (slots.foldl (addSlot asset) {}).others ≠ [] then _ else _) = .ok (listingOf _ _ _ _ _ _)
      rw [listingOf]
      by_cases hm : includeManaged ∧ (slots.foldl (addSlot asset) {}).companions = []
      · rw [if_pos hm]
        by_cases ho : (slots.foldl (addSlot asset) {}).others = []
        · rw [if_neg fun h => h.2.2 ho, ho]
          rfl
        · rw [if_pos ⟨hm.1, hm.2, ho⟩, Async.eval_bind, hpass]
          rfl
      · rw [if_neg hm, if_neg fun h => hm ⟨h.1, h.2.1⟩]
        rfl

end

end BoingObserver.Links
