import BoingObserver.NativeUnit.Config
import BoingObserver.Overlap
import BoingObserver.Rpc.Block

/-!
# The loads of the home page and of the account history

`HomeChainDataProvider` of `home-chain-data.tsx` and `AccountTxHistory` of
`account-tx-history.tsx`, as views of overlapping loads.  Neither drops the answer
of a load that was superseded.

* `home_account_neverStale`: what runs show when superseded loads settle in order.
* `staleLoad_shown`: what they show otherwise.
-/

namespace BoingObserver.View

open Js Rpc NativeUnit Overlap

/-! ## The home page -/

/-- The result of `fetchRecentBlocks`. -/
structure HomeData where
  height : ℕ
  blocks : List Block

structure HomeView where
  tipHeight : Option ℕ
  blocks : List Block
  loading : Bool
  refreshing : Bool
  error : Option Text

/-- `HomeChainDataProvider.load`; a failed refresh keeps what is shown. -/
def home : Loader HomeData Text HomeView where
  initial :=
    { tipHeight := none, blocks := [], loading := true, refreshing := false, error := none }
  start refresh v :=
    if refresh then { v with error := none, refreshing := true }
    else { v with error := none, loading := true }
  settle refresh r v :=
    match r with
    | .ok d =>
      { v with
        tipHeight := some d.height
        blocks := d.blocks
        loading := false
        refreshing := false }
    | .error e =>
      { v with
        error := some e
        tipHeight := if refresh then v.tipHeight else none
        blocks := if refresh then v.blocks else []
        loading := false
        refreshing := false }
  shown v := v.tipHeight.map fun height => ⟨height, v.blocks⟩

/-- Of superseded loads only a refresh that fails is harmless. -/
def homeRules : Rules home where
  clear _ := True
  harmless refresh r := refresh = true ∧ ∃ e, r = .error e
  shown_of_clear := fun _ _ _ _ => rfl
  shown_of_harmless := by
    rintro _ _ v ⟨rfl, e, rfl⟩
    rfl

/-! ## The account history -/

structure HistoryKey where
  address64 : Text
  network : NetworkId
  windowBlocks : ℕ
  deriving DecidableEq

/-- `Data` stands for the body of an answer. -/
structure AccountView (Data : Type) where
  data : Option Data
  error : Option Text
  loading : Bool

/-- `AccountTxHistory.load`; the page shows its data unless it loads or has an error. -/
def account (Data : Type) : Loader Data Text (AccountView Data) where
  initial := { data := none, error := none, loading := true }
  start _ v := { v with loading := true, error := none }
  settle _ r v :=
    match r with
    | .ok d => { v with data := some d, loading := false }
    | .error e => { data := none, error := some e, loading := false }
  shown v := if v.loading ∨ v.error.isSome then none else v.data

/-- No settlement of a superseded load is harmless, and a success does not clear an error. -/
def accountRules (Data : Type) : Rules (account Data) where
  clear v := v.error = none
  harmless _ _ := False
  shown_of_clear := by
    intro _ d v hv
    change (if false = true ∨ v.error.isSome then none else some d) = some d
    rw [hv]
    rfl
  shown_of_harmless := fun _ _ _ h => h.elim

/-! ## Runs -/

def AlwaysNeverStale {κ δ ε σ : Type} [DecidableEq κ] (L : Loader δ ε σ) (key : κ)
    (events : List (Event κ δ ε)) : Prop :=
  ∀ earlier, earlier <+: events → NeverStale L (run (step L) (mount L key) earlier)

theorem alwaysNeverStale {κ δ ε σ : Type} [DecidableEq κ] {L : Loader δ ε σ} (R : Rules L)
    {key : κ} {events : List (Event κ δ ε)}
    (h : AllAllowed (step L) (Orderly R) (mount L key) events) :
    AlwaysNeverStale L key events :=
  fun _ hp => run_neverStale R fun before e hb => h before e (hb.trans hp)

/-- **A stale answer is not shown** in runs where, once the newest load has succeeded, superseded
loads do not settle (on the home page: other than as a failed refresh), and where the newest load of
a history does not succeed under the error of a superseded one. -/
theorem home_account_neverStale (Data : Type) :
    (∀ (network : NetworkId) (events : List (Event NetworkId HomeData Text)),
      AllAllowed (step home) (Orderly homeRules) (mount home network) events →
        AlwaysNeverStale home network events) ∧
    ∀ (k : HistoryKey) (events : List (Event HistoryKey Data Text)),
      AllAllowed (step (account Data)) (Orderly (accountRules Data)) (mount (account Data) k)
        events → AlwaysNeverStale (account Data) k events :=
  ⟨fun _ _ h => alwaysNeverStale homeRules h, fun _ _ h => alwaysNeverStale (accountRules Data) h⟩

namespace DeepLink

def testnetData : HomeData := ⟨2000, []⟩

def mainnetData : HomeData := ⟨7, []⟩

def testnetKey : HistoryKey := ⟨List.replicate 64 'a', .testnet, 32⟩

def mainnetKey : HistoryKey := { testnetKey with network := .mainnet }

/-- The network is switched to mainnet; the two loads settle in the order given. -/
def homeRun (first second : ℕ × HomeData) : List (Event NetworkId HomeData Text) :=
  [.switch .mainnet, .settle first.1 (.ok first.2), .settle second.1 (.ok second.2)]

def historyRun (first second : ℕ × ℕ) : List (Event HistoryKey ℕ Text) :=
  [.switch mainnetKey, .settle first.1 (.ok first.2), .settle second.1 (.ok second.2)]

end DeepLink

open DeepLink in
/-- The loads settle in the order they were started. -/
theorem home_account_neverStale_inOrder :
    AlwaysNeverStale home .testnet (homeRun (0, testnetData) (1, mainnetData)) ∧
      AlwaysNeverStale (account ℕ) testnetKey (historyRun (0, 2000) (1, 7)) := by
  refine ⟨(home_account_neverStale ℕ).1 .testnet _ ?_, (home_account_neverStale ℕ).2 _ _ ?_⟩
  · refine allAllowed_cons trivial (allAllowed_cons ?_ (allAllowed_cons ?_ allAllowed_nil))
    · rintro l - -
      rintro d ⟨⟩
    · rintro l - - d -
      trivial
  · refine allAllowed_cons trivial (allAllowed_cons ?_ (allAllowed_cons ?_ allAllowed_nil))
    · rintro l - -
      rintro d ⟨⟩
    · rintro l - - d -
      rfl

open DeepLink in
/-- **The testnet's blocks on mainnet**: the load of the previous network settles last. -/
theorem staleLoad_shown :
    ¬ AlwaysNeverStale home .testnet (homeRun (1, mainnetData) (0, testnetData)) ∧
      home.shown (run (step home) (mount home .testnet)
        (homeRun (1, mainnetData) (0, testnetData))).view = some testnetData ∧
      ¬ AlwaysNeverStale (account ℕ) testnetKey (historyRun (1, 7) (0, 2000)) := by
  refine ⟨?_, rfl, ?_⟩
  · intro h
    obtain ⟨-, hshown⟩ := h _ (List.prefix_refl _) rfl mainnetData rfl
    have hheight := congrArg (Option.map HomeData.height) hshown
    exact absurd hheight (by decide)
  · intro h
    obtain ⟨-, hshown⟩ := h _ (List.prefix_refl _) rfl 7 rfl
    exact absurd hshown (by decide)

end BoingObserver.View
