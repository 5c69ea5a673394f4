import BoingObserver.Economics.Conservation
import BoingObserver.Rpc.MapPool
import BoingObserver.WorkerPool

/-!
# The window of recent blocks

`fetchRecentBlocks` of `rpc-methods.ts`, with `mapPool`: the newest blocks of a chain,
fetched by a pool of workers and handed to the widgets and to `analyzeBlockEconomics`.

* `eq_filterMap_of_fetches`: the blocks are those of the answers, in the order of the
  heights asked for.
* `fetchRecentBlocks_distinct_iff`: their heights are strictly decreasing, and no
  transaction is counted twice, iff block 0 is given at most once.
-/

namespace BoingObserver.Economics

open Js Rpc WorkerPool NativeUnit
open Overlap (run AllAllowed allAllowed_cons allAllowed_nil)

/-! ## The window -/

/-- A block of a window; one without a `hash` is not shown. -/
structure WindowBlock where
  hash : Option Text
  block : Block

abbrev BlockAnswer : Type := Except JsError (Option WindowBlock)

/-- `try { … } catch { return null }` -/
def softFail : BlockAnswer → Option WindowBlock
  | .ok b => b
  | .error _ => none

def recentBlocksConcurrency : ℕ := 4

/-- The length of `Array.from({ length: Math.max(0, count) })`. -/
def windowLength : Number → Except JsError ℕ
  | .finite q => if ⌊q⌋.toNat < 2 ^ 32 then .ok ⌊q⌋.toNat else .error .rangeError
  | .nan => .ok 0
  | .infinite negative => if negative then .ok 0 else .error .rangeError

/-- The height that the fetch at an index of the window is for: `Math.max(0, height - i)`. -/
def windowHeight (height i : ℕ) : ℕ := height - i

/-- `mapPool(items, concurrency, fn)` for so many items, with the first calls made. -/
def mapPool {β : Type} (count concurrency : ℕ) : Pool β :=
  start count (max 1 (min concurrency (if count = 0 then 1 else count)))

def validBlock (b : Option WindowBlock) : Option Block :=
  (b.filter fun b => b.hash.isSome).map (·.block)

/-- `fetchRecentBlocks` ends with these blocks, when its fetches end so, in whatever order. -/
def Fetches (count : Number) (fetched : ℕ → BlockAnswer) (blocks : List Block) : Prop :=
  ∃ n events, windowLength count = .ok n ∧
    AllAllowed (settle n) (Answered fun i b => b = softFail (fetched i))
      (mapPool n recentBlocksConcurrency) events ∧
    (run (settle n) (mapPool n recentBlocksConcurrency) events).inFlight = [] ∧
    blocks =
      (run (settle n) (mapPool n recentBlocksConcurrency) events).results.filterMap fun r =>
        validBlock r.join

def ServesHeights (height : ℕ) (fetched : ℕ → BlockAnswer) : Prop :=
  ∀ i b, fetched i = .ok (some b) →
    b.block.header.height = some (.ofNat (windowHeight height i))

def Gives (fetched : ℕ → BlockAnswer) (i : ℕ) : Prop :=
  ∃ b, validBlock (softFail (fetched i)) = some b

/-- Of the fetches of block 0, which are those from the index of the head height on, at most one
gives a block. -/
def GenesisOnce (height n : ℕ) (fetched : ℕ → BlockAnswer) : Prop :=
  ∀ i j, height ≤ i → i < j → j < n → ¬ (Gives fetched i ∧ Gives fetched j)

/-! ## What is counted -/

def transactionPlaces (blocks : List Block) : List (ℚ × ℕ) :=
  blocks.flatMap fun b => (List.range b.txs.length).map fun i => (b.sortHeight, i)

/-- `analyzeBlockEconomics` counts each transaction once. -/
def CountedOnce (nt : NumberText) (registry : Registry) (blocks : List Block) : Prop :=
  (transactionPlaces blocks).Nodup ∧
    (analyzeBlockEconomics nt registry (blocks.map some)).2.txCounts.total =
      (transactionPlaces blocks).length

theorem total_eq_length (nt : NumberText) (registry : Registry) (blocks : List Block) :
    (analyzeBlockEconomics nt registry (blocks.map some)).2.txCounts.total =
      (transactionPlaces blocks).length := by
  rw [totals_eq, transactionPlaces, List.length_flatMap, List.filterMap_map]
  have hid : id ∘ (some : Block → Option Block) = some := rfl
  rw [hid, List.filterMap_some]
  simp only [totalsOf, List.length_map, List.length_range]

theorem countedOnce_of_pairwise (nt : NumberText) (registry : Registry) {blocks : List Block}
    (h : (blocks.map (·.sortHeight)).Pairwise (· > ·)) : CountedOnce nt registry blocks := by
  refine ⟨List.nodup_flatMap.mpr ⟨?_, ?_⟩, total_eq_length nt registry blocks⟩
  · intro b _
    exact List.nodup_range.map fun i j hij => (Prod.ext_iff.mp hij).2
  · refine (List.pairwise_map.mp h).imp ?_
    intro b b' hb
    apply List.disjoint_left.mpr
    intro place hmem hmem'
    obtain ⟨i, -, rfl⟩ := List.mem_map.mp hmem
    obtain ⟨j, -, hplace⟩ := List.mem_map.mp hmem'
    exact hb.ne (Prod.ext_iff.mp hplace).1

/-! ## The heights of the window -/

section

variable {height n : ℕ} {count : Number} {fetched : ℕ → BlockAnswer} {blocks : List Block}

/-- The pool of the window is the one of `mapPool`. -/
theorem mapPool_eq {α β : Type} (items : List α) :
    (mapPool items.length recentBlocksConcurrency : Pool β) =
      Rpc.mapPool items (.ofNat recentBlocksConcurrency) := by
  rw [mapPool, Rpc.mapPool, poolWorkers_ofNat (by decide)]

/-- **The blocks are those of the answers**, in the order of the heights, whatever the order in
which the fetches end. -/
theorem eq_filterMap_of_fetches (hn : windowLength count = .ok n)
    (h : Fetches count fetched blocks) :
    blocks = (List.range n).filterMap fun i => validBlock (softFail (fetched i)) := by
  obtain ⟨n', events, hn', hrun, hidle, rfl⟩ := h
  obtain rfl := Except.ok.inj (hn.symm.trans hn')
  have hworking := working_run (lt_of_lt_of_le Nat.one_pos (le_max_left 1 _)) hrun
  have hresults := (results_of_idle hworking hidle).2
  rw [mapPool, hresults, List.filterMap_map]
  rfl

theorem sortHeight_of_gives (hserves : ServesHeights height fetched) {i : ℕ} {b : Block}
    (h : validBlock (softFail (fetched i)) = some b) :
    b.sortHeight = (windowHeight height i : ℕ) := by
  obtain ⟨w, hw, rfl⟩ := Option.map_eq_some_iff.mp h
  have hsoft := (Option.filter_eq_some_iff.mp hw).1
  have hok : fetched i = .ok (some w) := by
    cases hf : fetched i with
    | error e =>
      rw [hf] at hsoft
      cases hsoft
    | ok r =>
      rw [hf] at hsoft
      exact congrArg Except.ok hsoft
  rw [Block.sortHeight, hserves i w hok]
  rfl

/-- Two fetches of the window give the same height iff both are for block 0. -/
theorem windowHeight_lt_iff {i j : ℕ} (hij : i < j) :
    windowHeight height j < windowHeight height i ↔ i < height := by
  rw [windowHeight, windowHeight]
  omega

theorem pairwise_heights_iff (hserves : ServesHeights height fetched)
    (hblocks : blocks = (List.range n).filterMap fun i => validBlock (softFail (fetched i))) :
    (blocks.map (·.sortHeight)).Pairwise (· > ·) ↔ GenesisOnce height n fetched := by
  have hlt : ∀ {i j : ℕ} {b b' : Block}, i < j → validBlock (softFail (fetched i)) = some b →
      validBlock (softFail (fetched j)) = some b' → (b.sortHeight > b'.sortHeight ↔ i < height) := by
    intro i j b b' hij hb hb'
    rw [sortHeight_of_gives hserves hb, sortHeight_of_gives hserves hb', gt_iff_lt, Nat.cast_lt,
      windowHeight_lt_iff hij]
  rw [hblocks, List.pairwise_map, List.pairwise_filterMap, List.pairwise_iff_getElem]
  simp only [List.length_range, List.getElem_range]
  constructor
  · rintro h i j hi hij hj ⟨⟨b, hb⟩, b', hb'⟩
    have hgt := (hlt hij hb hb').mp (h i j (hij.trans hj) hj hij b hb b' hb')
    omega
  · intro h i j _ hj hij b hb b' hb'
    by_contra hnot
    rw [hlt hij hb hb', not_lt] at hnot
    exact h i j hnot hij hj ⟨⟨b, hb⟩, b', hb'⟩

end

/-- **Recent blocks are distinct** iff block 0 is given at most once: in every run on every chain,
the heights are strictly decreasing, and no transaction is counted twice, exactly then. -/
theorem fetchRecentBlocks_distinct_iff {height n : ℕ} {count : Number} {fetched : ℕ → BlockAnswer}
    {blocks : List Block} (hn : windowLength count = .ok n)
    (hserves : ServesHeights height fetched) (h : Fetches count fetched blocks) (nt : NumberText)
    (registry : Registry) :
    (blocks.map (·.sortHeight)).Pairwise (· > ·) ∧ CountedOnce nt registry blocks ↔
      GenesisOnce height n fetched := by
  rw [← pairwise_heights_iff hserves (eq_filterMap_of_fetches hn h)]
  exact and_iff_left_of_imp (countedOnce_of_pairwise nt registry)

/-! ## A chain of two blocks -/

def blockAt (height : ℕ) : WindowBlock where
  hash := some "ab"
  block :=
    { header := { height := some (.ofNat height), timestamp := .null, proposer := .string [] }
      transactions := some [.object [("payload", .object [("Transfer", .object [])])]]
      receipts := .null }

def twoBlocks (i : ℕ) : BlockAnswer := .ok (some (blockAt (windowHeight 1 i)))

theorem servesHeights_twoBlocks : ServesHeights 1 twoBlocks := by
  intro i b h
  obtain rfl := Option.some.inj (Except.ok.inj h)
  rfl

theorem fetches_twoBlocks_two :
    Fetches (.ofNat 2) twoBlocks [(blockAt 1).block, (blockAt 0).block] := by
  refine ⟨2, [(1, some (blockAt 0)), (0, some (blockAt 1))], rfl, ?_, rfl, rfl⟩
  refine allAllowed_cons ⟨by decide, rfl⟩ (allAllowed_cons ⟨by decide, rfl⟩ allAllowed_nil)

/-- A window of two blocks, fetched out of order. -/
theorem fetchRecentBlocks_distinct_two :
    ([(blockAt 1).block, (blockAt 0).block].map (·.sortHeight)).Pairwise (· > ·) ∧
        CountedOnce integersOnly Registry.empty [(blockAt 1).block, (blockAt 0).block] ↔
      GenesisOnce 1 2 twoBlocks :=
  fetchRecentBlocks_distinct_iff rfl servesHeights_twoBlocks fetches_twoBlocks_two _ _

/-- **A window of three on a chain of two blocks has block 0 twice**, and counts its transfer
twice. -/
theorem genesis_twice :
    ServesHeights 1 twoBlocks ∧
      Fetches (.ofNat 3) twoBlocks [(blockAt 1).block, (blockAt 0).block, (blockAt 0).block] ∧
      ¬ ([(blockAt 1).block, (blockAt 0).block, (blockAt 0).block].map
          (·.sortHeight)).Pairwise (· > ·) ∧
      ¬ CountedOnce integersOnly Registry.empty
          [(blockAt 1).block, (blockAt 0).block, (blockAt 0).block] := by
  refine ⟨servesHeights_twoBlocks, ?_, by decide, fun h => absurd h.1 (by decide)⟩
  refine ⟨3, [(2, some (blockAt 0)), (0, some (blockAt 1)), (1, some (blockAt 0))], rfl, ?_, rfl,
    rfl⟩
  exact allAllowed_cons ⟨by decide, rfl⟩ (allAllowed_cons ⟨by decide, rfl⟩
    (allAllowed_cons ⟨by decide, rfl⟩ allAllowed_nil))

end BoingObserver.Economics
