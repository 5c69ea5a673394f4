import BoingObserver.Latest
import BoingObserver.Qa.Vote

/-!
# Who votes

`useQaReviewerSession` of `qa-reviewer-gate.tsx`: the account in charge of the votes comes from the
wallet or was typed, and the tab's storage keeps it over page loads.  What the wallet answers is
applied later, once its chain is known; anything may happen in between.

* `lastWrite_of_wallet`: an account of the wallet is the first of the report applied last.
* `answered_run`: an answer that is applied was given since the hook was mounted.
* `reviewer_exact`: whose votes a tab casts, after any run.
-/

namespace BoingObserver.Qa

open Js Rpc NativeUnit Oracle Wallet
open Overlap (run run_concat AllAllowed allAllowed_nil allAllowed_cons)
open Latest (LastWrite lastWrite_of_read lastWrite_concat)

inductive VoterSource
  | wallet
  | manual
  deriving DecidableEq

def VoterSource.text : VoterSource → Text
  | .wallet => "wallet"
  | .manual => "manual"

/-- What the hook holds, what the tab's storage keeps under its two keys, and the answers of the
wallet that are not applied yet. -/
structure Reviewer where
  /-- `status?.configured`; nothing before the status is known. -/
  configured : Option Bool
  voterHex : Text
  source : Option VoterSource
  storedVoter : Option Text
  storedSource : Option Text
  /-- What the effect of the mount got, while it awaits the chain id. -/
  listing : Option (List Text)
  /-- What the running `connectWallet`s got, while they await the right chain. -/
  connecting : List (List Text)
  /-- Those of earlier mounts on the same page. -/
  late : List (List Text)

def Reviewer.initial : Reviewer := ⟨none, [], none, none, none, none, [], []⟩

/-- Which of the two keys a write reaches before it throws. -/
inductive Kept
  | none
  | voter
  | both
  deriving DecidableEq

namespace Reviewer

/-! ## The storage -/

def persistVoter (t : Reviewer) (hex : Text) (source : VoterSource) : Kept → Reviewer
  | .none => t
  | .voter => { t with storedVoter := some hex }
  | .both => { t with storedVoter := some hex, storedSource := some source.text }

def clearPersistedVoter (t : Reviewer) : Kept → Reviewer
  | .none => t
  | .voter => { t with storedVoter := none }
  | .both => { t with storedVoter := none, storedSource := none }

/-- The account that is kept, for a stored source that is as wanted. -/
def restore (t : Reviewer) (wanted : Option Text → Bool) : Reviewer :=
  let hex := normalizeVoterHex (t.storedVoter.getD [])
  if isAccountHex hex && wanted t.storedSource then
    { t with voterHex := hex, source := some .manual }
  else t

/-! ## The hook -/

/-- The hook starts anew; `late` are the calls of earlier mounts. -/
def mount (t : Reviewer) (late : List (List Text)) (injected readable : Bool) : Reviewer :=
  let t : Reviewer := ⟨none, [], none, t.storedVoter, t.storedSource, none, [], late⟩
  if !injected && readable then t.restore (fun source => source ≠ some VoterSource.wallet.text)
  else t

def applyAccounts (t : Reviewer) (accounts : List Text) (nextSource : VoterSource) (kept : Kept) :
    Reviewer :=
  match firstAccountHex accounts with
  | none => { t with voterHex := [], source := none }.clearPersistedVoter kept
  | some hex => { t with voterHex := hex, source := some nextSource }.persistVoter hex nextSource kept

def signIn (t : Reviewer) (nextVoter : Text) (nextSource : VoterSource) (kept : Kept) : Reviewer :=
  let hex := normalizeVoterHex nextVoter
  if isAccountHex hex then
    { t with voterHex := hex, source := some nextSource }.persistVoter hex nextSource kept
  else t

def signOut (t : Reviewer) (kept : Kept) : Reviewer :=
  { t with voterHex := [], source := none }.clearPersistedVoter kept

def signedIn (t : Reviewer) : Bool :=
  t.configured.getD false && isAccountHex (normalizeVoterHex t.voterHex)

def viaWallet (t : Reviewer) : Bool := t.signedIn && t.source = some .wallet

def voter (t : Reviewer) : Voter := ⟨t.voterHex, t.viaWallet⟩

end Reviewer

/-- What happens to a tab.  `readable` says whether its storage can be read. -/
inductive Event
  /-- The page is loaded, with the extension or without. -/
  | load (injected readable : Bool)
  /-- The hook is mounted again on the same page. -/
  | remount (injected readable : Bool)
  /-- What `/api/qa/reviewer-status` answers; nothing when that fails. -/
  | status (answer : Option Value)
  /-- What the extension answers to the `boing_accounts` of the mount. -/
  | answered (raw : Value)
  /-- The effect of the mount goes on with what it got. -/
  | listed (accounts : List Text) (readable : Bool) (kept : Kept)
  | accountsChanged (raw : Value) (kept : Kept)
  /-- What the wallet answers to the `boing_requestAccounts` of a `connectWallet`. -/
  | requested (raw : Value)
  /-- A `connectWallet` goes through with what it got; one that fails is not heard of again. -/
  | connected (accounts : List Text) (kept : Kept)
  /-- One of an earlier mount goes through: only the storage is still its own. -/
  | connectedLate (accounts : List Text) (kept : Kept)
  | signIn (voter : Text) (kept : Kept)
  | signOut (kept : Kept)

/-- `v !== false` -/
def isNotFalse : Value → Bool
  | .bool b => b
  | _ => true

/-- `Array.isArray(raw) ? raw.filter((x) => typeof x === "string") : []` -/
def stringsOf (raw : Value) : List Text := (raw.asArray?.getD []).filterMap Value.asString?

def Reviewer.step (t : Reviewer) : Event → Reviewer
  | .load injected readable => t.mount [] injected readable
  | .remount injected readable => t.mount (t.connecting ++ t.late) injected readable
  | .status answer =>
    { t with configured := some (match answer with
        | some v => isNotFalse (v.get "configured")
        | none => true) }
  | .answered raw => { t with listing := some (walletAccounts raw) }
  | .listed accounts readable kept =>
    let t := { t with listing := none }
    if accounts ≠ [] then t.applyAccounts accounts .wallet kept
    else if readable then t.restore (fun source => source = some VoterSource.manual.text)
    else t
  | .accountsChanged raw kept => t.applyAccounts (stringsOf raw) .wallet kept
  | .requested raw =>
    match walletRequestAccounts raw with
    | .ok accounts => { t with connecting := accounts :: t.connecting }
    | .error _ => t
  | .connected accounts kept =>
    { t with connecting := t.connecting.erase accounts }.applyAccounts accounts .wallet kept
  | .connectedLate accounts kept =>
    { { t with late := t.late.erase accounts }.applyAccounts accounts .wallet kept with
      voterHex := t.voterHex, source := t.source }
  | .signIn voter kept => t.signIn voter .manual kept
  | .signOut kept => t.signOut kept

/-- An answer is applied once it is there. -/
def Reviewer.Allowed (t : Reviewer) : Event → Prop
  | .listed accounts _ _ => t.listing = some accounts
  | .connected accounts _ => accounts ∈ t.connecting
  | .connectedLate accounts _ => accounts ∈ t.late
  | _ => True

/-! ## Who is in charge -/

/-- The accounts of the wallet that are applied. -/
def Event.accounts : Event → Option (List Text)
  | .listed accounts _ _ => if accounts ≠ [] then some accounts else none
  | .accountsChanged raw _ => some (stringsOf raw)
  | .connected accounts _ => some accounts
  | _ => none

/-- The accounts that are applied have this one first. -/
def Event.Applies (hex : Text) (e : Event) : Prop :=
  ∃ l, e.accounts = some l ∧ firstAccountHex l = some hex

/-- The accounts that the wallet reports, applied or not. -/
def Event.reports : Event → Option (List Text)
  | .answered raw => some (walletAccounts raw)
  | .accountsChanged raw _ => some (stringsOf raw)
  | .requested raw => (walletRequestAccounts raw).toOption
  | _ => none

def Event.mounts : Event → Bool
  | .load _ _ => true
  | .remount _ _ => true
  | _ => false

/-- The wallet reported these accounts, since the hook was mounted. -/
def Reported (events : List Event) (l : List Text) : Prop :=
  LastWrite Event.mounts (fun _ e => e.reports = some l) events

def Event.Types (hex : Text) (e : Event) : Prop :=
  ∃ voter kept, e = .signIn voter kept ∧ normalizeVoterHex voter = hex ∧ isAccountHex hex = true

/-- An account is chosen for the hook, or the one it has is dropped. -/
def Event.chooses : Event → Bool
  | .listed accounts _ _ => accounts ≠ []
  | .accountsChanged _ _ => true
  | .connected _ _ => true
  | .signIn voter _ => isAccountHex (normalizeVoterHex voter)
  | .signOut _ => true
  | _ => false

def Event.decides (e : Event) : Bool := e.mounts || e.chooses

/-- The write, if there is one, reaches both keys. -/
def Event.Keeps : Event → Prop
  | .listed _ _ kept => kept = .both
  | .accountsChanged _ kept => kept = .both
  | .connected _ kept => kept = .both
  | .connectedLate _ kept => kept = .both
  | .signIn _ kept => kept = .both
  | .signOut kept => kept = .both
  | _ => True

namespace Reviewer

section

variable {t : Reviewer} {hex : Text} {source : VoterSource} {kept : Kept}

@[simp] theorem persistVoter_voterHex : (t.persistVoter hex source kept).voterHex = t.voterHex := by
  cases kept <;> rfl

@[simp] theorem persistVoter_source : (t.persistVoter hex source kept).source = t.source := by
  cases kept <;> rfl

@[simp] theorem clearPersistedVoter_voterHex :
    (t.clearPersistedVoter kept).voterHex = t.voterHex := by
  cases kept <;> rfl

@[simp] theorem clearPersistedVoter_source : (t.clearPersistedVoter kept).source = t.source := by
  cases kept <;> rfl

end

/-- What a step leaves in charge: nobody, an account of the wallet, a typed one, one that is
restored, or whoever was. -/
inductive Change (t : Reviewer) (e : Event) (t' : Reviewer) : Prop
  | none (h : t'.voterHex = []) (hs : t'.source = .none)
  | applied {hex : Text} (happlies : e.Applies hex) (h : t'.voterHex = hex)
      (hs : t'.source = some .wallet)
  | typed {hex : Text} (htypes : e.Types hex) (h : t'.voterHex = hex)
      (hs : t'.source = some .manual)
  | restored {hex : Text} (hhex : hex = normalizeVoterHex (t.storedVoter.getD []))
      (haccount : isAccountHex hex = true) (hstored : t.storedSource ≠ some VoterSource.wallet.text)
      (hchooses : e.chooses = false) (h : t'.voterHex = hex) (hs : t'.source = some .manual)
  | kept (hdecides : e.decides = false) (h : t'.voterHex = t.voterHex) (hs : t'.source = t.source)

inductive Stored (t : Reviewer) (e : Event) (t' : Reviewer) : Prop
  | kept (hchooses : e.chooses = false) (hv : t'.storedVoter = t.storedVoter)
      (hs : t'.storedSource = t.storedSource)
  | cleared (hv : t'.storedVoter = none)
  | applied (hs : t'.storedSource = some VoterSource.wallet.text)
  | typed {hex : Text} (htypes : e.Types hex) (hv : t'.storedVoter = some hex)

/-! ## One step -/

theorem change_applyAccounts {t t₀ : Reviewer} {e : Event} {accounts : List Text} {kept : Kept}
    (he : e.accounts = some accounts) : Change t e (t₀.applyAccounts accounts .wallet kept) := by
  rw [applyAccounts]
  cases hfirst : firstAccountHex accounts with
  | none => exact .none (by simp) (by simp)
  | some hex => exact .applied ⟨accounts, he, hfirst⟩ (by simp) (by simp)

theorem change_restore {t t₀ : Reviewer} {e : Event} {wanted : Option Text → Bool}
    (hstored : t₀.storedVoter = t.storedVoter ∧ t₀.storedSource = t.storedSource)
    (hwanted : ∀ s, wanted s = true → s ≠ some VoterSource.wallet.text)
    (hchooses : e.chooses = false) (hsame : Change t e t₀) : Change t e (t₀.restore wanted) := by
  rw [restore]
  split
  next hok =>
    obtain ⟨haccount, hs⟩ := Bool.and_eq_true_iff.mp hok
    rw [hstored.1] at haccount
    rw [hstored.2] at hs
    exact .restored rfl haccount (hwanted _ hs) hchooses (by rw [hstored.1]) rfl
  next => exact hsame

theorem change_mount {t : Reviewer} {e : Event} (hchooses : e.chooses = false)
    (late : List (List Text)) (injected readable : Bool) :
    Change t e (t.mount late injected readable) := by
  have hreset : Change t e ⟨none, [], none, t.storedVoter, t.storedSource, none, [], late⟩ :=
    .none rfl rfl
  rw [mount]
  split
  · exact change_restore ⟨rfl, rfl⟩ (fun s hs => of_decide_eq_true hs) hchooses hreset
  · exact hreset

/-- **One step**, case by case. -/
theorem change_step (t : Reviewer) (e : Event) : Change t e (t.step e) := by
  cases e with
  | load injected readable => exact change_mount rfl _ _ _
  | remount injected readable => exact change_mount rfl _ _ _
  | status answer => exact .kept rfl rfl rfl
  | answered raw => exact .kept rfl rfl rfl
  | listed accounts readable kept =>
    rw [step]
    split
    next hne => exact change_applyAccounts (if_pos hne)
    next hnil =>
      have hnothing : Event.chooses (.listed accounts readable kept) = false :=
        decide_eq_false hnil
      have hsame : Change t (.listed accounts readable kept) { t with listing := none } :=
        .kept hnothing rfl rfl
      split
      · refine change_restore ⟨rfl, rfl⟩ (fun s hs => ?_) hnothing hsame
        rw [of_decide_eq_true hs]
        decide
      · exact hsame
  | accountsChanged raw kept => exact change_applyAccounts rfl
  | requested raw =>
    rw [step]
    cases walletRequestAccounts raw with
    | ok accounts => exact .kept rfl rfl rfl
    | error e => exact .kept rfl rfl rfl
  | connected accounts kept => exact change_applyAccounts rfl
  | connectedLate accounts kept => exact .kept rfl rfl rfl
  | signIn voter kept =>
    rw [step, signIn]
    split
    next haccount => exact .typed ⟨voter, kept, rfl, rfl, haccount⟩ (by simp) (by simp)
    next hnot => exact .kept (Bool.eq_false_iff.mpr hnot) rfl rfl
  | signOut kept => exact .none (by simp [step, signOut]) (by simp [step, signOut])

theorem stored_applyAccounts {t t₀ t' : Reviewer} {e : Event} {accounts : List Text}
    (hv : t'.storedVoter = (t₀.applyAccounts accounts .wallet .both).storedVoter)
    (hs : t'.storedSource = (t₀.applyAccounts accounts .wallet .both).storedSource) :
    Stored t e t' := by
  rw [applyAccounts] at hv hs
  cases hfirst : firstAccountHex accounts with
  | none =>
    rw [hfirst] at hv
    exact .cleared hv
  | some hex =>
    rw [hfirst] at hs
    exact .applied hs

theorem restore_storedVoter (t : Reviewer) (wanted : Option Text → Bool) :
    (t.restore wanted).storedVoter = t.storedVoter ∧
      (t.restore wanted).storedSource = t.storedSource := by
  rw [restore]
  split <;> exact ⟨rfl, rfl⟩

theorem stored_mount {t : Reviewer} {e : Event} (hchooses : e.chooses = false)
    (late : List (List Text)) (injected readable : Bool) :
    Stored t e (t.mount late injected readable) := by
  rw [mount]
  split
  · exact .kept hchooses (restore_storedVoter _ _).1 (restore_storedVoter _ _).2
  · exact .kept hchooses rfl rfl

/-- **What one step stores**, when its writes are kept. -/
theorem stored_step (t : Reviewer) {e : Event} (h : e.Keeps) : Stored t e (t.step e) := by
  cases e with
  | load injected readable => exact stored_mount rfl _ _ _
  | remount injected readable => exact stored_mount rfl _ _ _
  | status answer => exact .kept rfl rfl rfl
  | answered raw => exact .kept rfl rfl rfl
  | listed accounts readable kept =>
    obtain rfl : kept = .both := h
    rw [step]
    split
    next => exact stored_applyAccounts rfl rfl
    next hnil =>
      have hnothing : Event.chooses (.listed accounts readable .both) = false :=
        decide_eq_false hnil
      split
      · exact .kept hnothing (restore_storedVoter _ _).1 (restore_storedVoter _ _).2
      · exact .kept hnothing rfl rfl
  | accountsChanged raw kept =>
    obtain rfl : kept = .both := h
    exact stored_applyAccounts rfl rfl
  | requested raw =>
    rw [step]
    cases walletRequestAccounts raw with
    | ok accounts => exact .kept rfl rfl rfl
    | error e => exact .kept rfl rfl rfl
  | connected accounts kept =>
    obtain rfl : kept = .both := h
    exact stored_applyAccounts rfl rfl
  | connectedLate accounts kept =>
    obtain rfl : kept = .both := h
    exact stored_applyAccounts rfl rfl
  | signIn voter kept =>
    obtain rfl : kept = .both := h
    rw [step, signIn]
    split
    next haccount => exact .typed ⟨voter, .both, rfl, rfl, haccount⟩ rfl
    next hnot => exact .kept (Bool.eq_false_iff.mpr hnot) rfl rfl
  | signOut kept =>
    obtain rfl : kept = .both := h
    exact .cleared rfl

/-! ## Runs -/

/-- There is an account exactly when it has a source. -/
def Sound (t : Reviewer) : Prop :=
  (t.source = none ∧ t.voterHex = []) ∨ (t.source ≠ none ∧ isAccountHex t.voterHex = true)

theorem sound_step {t : Reviewer} (h : t.Sound) (e : Event) : (t.step e).Sound := by
  rcases change_step t e with ⟨hv, hs⟩ | ⟨⟨l, -, hfirst⟩, hv, hs⟩ | ⟨⟨_, _, _, _, haccount⟩, hv, hs⟩ |
    ⟨-, haccount, -, -, hv, hs⟩ | ⟨-, hv, hs⟩
  · exact .inl ⟨hs, hv⟩
  · exact .inr ⟨by simp [hs], hv ▸ isAccountHex_of_firstAccountHex hfirst⟩
  · exact .inr ⟨by simp [hs], hv ▸ haccount⟩
  · exact .inr ⟨by simp [hs], hv ▸ haccount⟩
  · rw [Sound, hv, hs]
    exact h

theorem sound_run (events : List Event) : (run step initial events).Sound := by
  induction events using List.reverseRecOn with
  | nil => exact .inl ⟨rfl, rfl⟩
  | append_singleton events e ih =>
    rw [run_concat]
    exact sound_step ih e

/-- **An account of the wallet** is the first of those applied last. -/
theorem lastWrite_of_wallet {events : List Event} {hex : Text}
    (hs : (run step initial events).source = some .wallet)
    (hv : (run step initial events).voterHex = hex) :
    LastWrite Event.decides (fun _ e => e.Applies hex) events := by
  have hread : ∀ {t : Reviewer}, (if t.source = some .wallet then some t.voterHex else none) =
      some hex ↔ t.source = some .wallet ∧ t.voterHex = hex := by
    intro t
    rw [Option.ite_none_right_eq_some, Option.some_inj]
  refine @lastWrite_of_read _ _ _ step initial
    (fun t => if t.source = some .wallet then some t.voterHex else none) _ _ hex _ rfl ?_
    (hread.mpr ⟨hs, hv⟩)
  intro events e h
  obtain ⟨hs, hv⟩ := hread.mp h
  rcases change_step (run step initial events) e with ⟨-, hs'⟩ | ⟨happlies, hv', -⟩ |
    ⟨-, -, hs'⟩ | ⟨-, -, -, -, -, hs'⟩ | ⟨hdecides, hv', hs'⟩
  · rw [hs] at hs'
    cases hs'
  · rw [hv] at hv'
    exact .inl (hv' ▸ happlies)
  · rw [hs] at hs'
    cases hs'
  · rw [hs] at hs'
    cases hs'
  · exact .inr ⟨hread.mpr ⟨hs'.symm.trans hs, hv'.symm.trans hv⟩, hdecides⟩

def restorable (t : Reviewer) : Option Text :=
  if t.storedSource = some VoterSource.wallet.text then none
  else (some (normalizeVoterHex (t.storedVoter.getD []))).filter isAccountHex

theorem restorable_eq_some {t : Reviewer} {hex : Text} : t.restorable = some hex ↔
    t.storedSource ≠ some VoterSource.wallet.text ∧
      normalizeVoterHex (t.storedVoter.getD []) = hex ∧ isAccountHex hex = true := by
  rw [restorable]
  split
  next h => exact iff_of_false (fun h' => by cases h') fun h' => h'.1 h
  next h =>
    rw [Option.filter_eq_some_iff, Option.some_inj]
    exact (and_iff_right h).symm

theorem chooses_of_decides {e : Event} (h : e.decides = false) : e.chooses = false :=
  (Bool.or_eq_false_iff.mp h).2

/-- The hook waits to apply these accounts. -/
def Awaits (t : Reviewer) (l : List Text) : Prop := t.listing = some l ∨ l ∈ t.connecting

section

variable {t : Reviewer} {l : List Text} {kept : Kept}

theorem awaits_restore {wanted : Option Text → Bool} : (t.restore wanted).Awaits l ↔ t.Awaits l := by
  rw [restore]
  split <;> exact Iff.rfl

theorem awaits_persistVoter {hex : Text} {source : VoterSource} :
    (t.persistVoter hex source kept).Awaits l ↔ t.Awaits l := by
  cases kept <;> exact Iff.rfl

theorem awaits_clearPersistedVoter : (t.clearPersistedVoter kept).Awaits l ↔ t.Awaits l := by
  cases kept <;> exact Iff.rfl

theorem awaits_applyAccounts {accounts : List Text} {source : VoterSource} :
    (t.applyAccounts accounts source kept).Awaits l ↔ t.Awaits l := by
  rw [applyAccounts]
  cases firstAccountHex accounts with
  | none => exact awaits_clearPersistedVoter
  | some hex => exact awaits_persistVoter

theorem not_awaits_mount {late : List (List Text)} {injected readable : Bool} :
    ¬ (t.mount late injected readable).Awaits l := by
  have hreset : ¬ Awaits ⟨none, [], none, t.storedVoter, t.storedSource, none, [], late⟩ l := by
    rintro (h | h)
    · cases h
    · cases h
  rw [mount]
  split
  · rwa [awaits_restore]
  · exact hreset

/-- What a step makes the hook wait to apply. -/
theorem awaits_step {e : Event} (h : (t.step e).Awaits l) :
    e.reports = some l ∨ (t.Awaits l ∧ e.mounts = false) := by
  cases e with
  | load injected readable => exact absurd h not_awaits_mount
  | remount injected readable => exact absurd h not_awaits_mount
  | status answer => exact .inr ⟨h, rfl⟩
  | answered raw =>
    rcases h with h | h
    · exact .inl h
    · exact .inr ⟨.inr h, rfl⟩
  | listed accounts readable kept =>
    have hrest : Awaits { t with listing := none } l := by
      rw [step] at h
      split at h
      · exact awaits_applyAccounts.mp h
      · split at h
        · exact awaits_restore.mp h
        · exact h
    exact .inr ⟨.inr (hrest.resolve_left fun hnone => nomatch hnone), rfl⟩
  | accountsChanged raw kept => exact .inr ⟨awaits_applyAccounts.mp h, rfl⟩
  | requested raw =>
    rw [step] at h
    rw [Event.reports]
    cases hraw : walletRequestAccounts raw with
    | ok accounts =>
      rw [hraw] at h
      rcases h with h | h
      · exact .inr ⟨.inl h, rfl⟩
      · rcases List.mem_cons.mp h with rfl | h
        · exact .inl rfl
        · exact .inr ⟨.inr h, rfl⟩
    | error e =>
      rw [hraw] at h
      exact .inr ⟨h, rfl⟩
  | connected accounts kept =>
    rcases awaits_applyAccounts.mp h with h | h
    · exact .inr ⟨.inl h, rfl⟩
    · exact .inr ⟨.inr (List.mem_of_mem_erase h), rfl⟩
  | connectedLate accounts kept =>
    have happlied : ({ t with late := t.late.erase accounts }.applyAccounts accounts .wallet
        kept).Awaits l := h
    have hlate : Awaits { t with late := t.late.erase accounts } l := awaits_applyAccounts.mp happlied
    exact .inr ⟨hlate, rfl⟩
  | signIn voter kept =>
    rw [step, signIn] at h
    split at h
    · have hset : Awaits { t with voterHex := normalizeVoterHex voter, source := some .manual } l :=
        awaits_persistVoter.mp h
      exact .inr ⟨hset, rfl⟩
    · exact .inr ⟨h, rfl⟩
  | signOut kept =>
    have hset : Awaits { t with voterHex := [], source := none } l :=
      awaits_clearPersistedVoter.mp h
    exact .inr ⟨hset, rfl⟩

end

/-- **An answer that is to be applied** was given since the hook was mounted. -/
theorem reported_of_awaits {events : List Event} {l : List Text}
    (h : (run step initial events).Awaits l) : Reported events l := by
  induction events using List.reverseRecOn with
  | nil => rcases h with h | h <;> cases h
  | append_singleton events e ih =>
    rw [run_concat] at h
    rcases awaits_step h with hreports | ⟨h, hmounts⟩
    · exact lastWrite_concat hreports
    · exact (ih h).concat hmounts

/-- What is kept is the last account that was typed, as long as writes reach the storage. -/
theorem typed_run {events : List Event} (hkeeps : ∀ e ∈ events, e.Keeps) :
    (∀ hex, (run step initial events).restorable = some hex →
      LastWrite Event.chooses (fun _ e => e.Types hex) events) ∧
    ∀ hex, (run step initial events).source = some .manual →
      (run step initial events).voterHex = hex →
        LastWrite Event.chooses (fun _ e => e.Types hex) events := by
  induction events using List.reverseRecOn with
  | nil =>
    refine ⟨fun hex h => ?_, fun hex hs _ => ?_⟩
    · cases h
    · cases hs
  | append_singleton events e ih =>
    obtain ⟨hrestorable, hmanual⟩ := ih fun e' he' => hkeeps e' (List.mem_append_left _ he')
    have he : e.Keeps := hkeeps e (List.mem_append_right _ (List.mem_singleton_self e))
    rw [run_concat]
    refine ⟨fun hex h => ?_, fun hex hs hv => ?_⟩
    · obtain ⟨hsource, hvoter, haccount⟩ := restorable_eq_some.mp h
      rcases stored_step (run step initial events) he with ⟨hchooses, hv, hs⟩ | hv | hs |
        ⟨htypes, hv⟩
      · rw [hs] at hsource
        rw [hv] at hvoter
        exact (hrestorable hex (restorable_eq_some.mpr ⟨hsource, hvoter, haccount⟩)).concat hchooses
      · rw [hv] at hvoter
        rw [← hvoter] at haccount
        cases haccount
      · exact absurd hs hsource
      · have ⟨_, _, _, _, haccount'⟩ := htypes
        rw [hv, Option.getD_some, normalizeVoterHex_of_isAccountHex haccount'] at hvoter
        exact lastWrite_concat (hvoter ▸ htypes)
    · rcases change_step (run step initial events) e with ⟨-, hs'⟩ | ⟨-, -, hs'⟩ | ⟨htypes, hv', -⟩ |
        ⟨hhex, haccount, hstored, hchooses, hv', -⟩ | ⟨hdecides, hv', hs'⟩
      · rw [hs] at hs'
        cases hs'
      · rw [hs] at hs'
        cases hs'
      · exact lastWrite_concat (hv.symm.trans hv' ▸ htypes)
      · obtain rfl := hv'.symm.trans hv
        exact (hrestorable _ (restorable_eq_some.mpr ⟨hstored, hhex.symm, haccount⟩)).concat hchooses
      · exact (hmanual hex (hs'.symm.trans hs) (hv'.symm.trans hv)).concat
          (chooses_of_decides hdecides)

theorem reported_of_allowed {before : List Event} {e : Event} {l : List Text}
    (hallowed : (run step initial before).Allowed e) (he : e.accounts = some l) :
    Reported (before ++ [e]) l := by
  cases e with
  | listed accounts readable kept =>
    obtain ⟨-, hl⟩ := Option.ite_none_right_eq_some.mp he
    obtain rfl := Option.some.inj hl
    exact (reported_of_awaits (.inl hallowed)).concat rfl
  | accountsChanged raw kept => exact lastWrite_concat he
  | connected accounts kept =>
    obtain rfl := Option.some.inj he
    exact (reported_of_awaits (.inr hallowed)).concat rfl
  | _ => cases he

theorem source_of_signedIn {t : Reviewer} (h : t.Sound) (hin : t.signedIn = true)
    (hvia : t.viaWallet = false) : t.source = some .manual := by
  rcases h with ⟨-, hnil⟩ | ⟨hsome, -⟩
  · have haccount := (Bool.and_eq_true_iff.mp hin).2
    rw [hnil] at haccount
    cases haccount
  · rw [viaWallet, hin, Bool.true_and, decide_eq_false_iff_not] at hvia
    cases hsource : t.source with
    | none => exact absurd hsource hsome
    | some source =>
      cases source with
      | wallet => exact absurd hsource hvia
      | manual => rfl

/-- **A vote that reaches the node** is of the account in charge, and signed exactly when that is the
wallet's. -/
theorem votes_of_sound (site : Site) (nt : NumberText) {t : Reviewer} (h : t.Sound)
    (network : NetworkId) (txHash : Text) (vote : QaVoteKind) (env : Env Hop.Answer)
    (tr : Trace Hop.Answer) : ∃ r asked,
      Async.exec env (Async.handle site.serve (castVote nt t.voter network txHash vote)) tr =
        (r, tr ++ asked) ∧
      ∀ x ∈ fetches asked, ∃ v url, x.1 = voteFetch site.env url v ∧ v.voterHex = t.voterHex ∧
        v.signedTxHex.isSome = t.viaWallet := by
  obtain ⟨r, asked, hexec, hcasts⟩ := cast_exact site nt t.voter network txHash vote env tr
  refine ⟨r, asked, hexec, fun x hx => ?_⟩
  obtain ⟨v, url, -, hsent, hfor, hnone, hsigned⟩ := hcasts.sent x hx
  refine ⟨v, url, hsent, ?_, ?_⟩
  · obtain ⟨hvoter, haccount⟩ := hfor.voter
    rcases h with ⟨-, hnil⟩ | ⟨-, hok⟩
    · rw [hvoter] at haccount
      change isAccountHex (normalizeVoterHex t.voterHex) = true at haccount
      rw [hnil] at haccount
      cases haccount
    · exact hvoter.trans (normalizeVoterHex_of_isAccountHex hok)
  · change v.signedTxHex.isSome = t.voter.viaWallet
    cases hvia : t.voter.viaWallet with
    | true =>
      obtain ⟨_, hex, -, -, hval⟩ := hsigned hvia
      rw [hval]
      rfl
    | false =>
      rw [hnone hvia]
      rfl

/-- **Whose votes a tab casts.**  After any run in which an answer of the wallet is applied once it is
there: an account that votes through the wallet is the first of those that were applied last, with
nothing typed, no sign-out and no page load since, and the wallet reported them since the hook was
mounted; any other was typed last, as long as the tab's storage keeps what is written to it.  Each
vote that reaches the node is this account's, and is signed exactly when it is the wallet's. -/
theorem reviewer_exact (site : Site) (nt : NumberText) {events : List Event}
    (hallowed : AllAllowed step Allowed initial events) :
    let t := run step initial events
    (t.viaWallet = true → LastWrite Event.decides (fun before e => ∃ l, e.accounts = some l ∧
      firstAccountHex l = some t.voterHex ∧ Reported (before ++ [e]) l) events) ∧
    (t.signedIn = true → t.viaWallet = false → (∀ e ∈ events, e.Keeps) →
      LastWrite Event.chooses (fun _ e => e.Types t.voterHex) events) ∧
    ∀ (network : NetworkId) (txHash : Text) (vote : QaVoteKind) (env : Env Hop.Answer)
      (tr : Trace Hop.Answer), ∃ r asked,
        Async.exec env (Async.handle site.serve (castVote nt t.voter network txHash vote)) tr =
          (r, tr ++ asked) ∧
        ∀ x ∈ fetches asked, ∃ v url, x.1 = voteFetch site.env url v ∧ v.voterHex = t.voterHex ∧
          v.signedTxHex.isSome = t.viaWallet := by
  intro t
  have hsound : t.Sound := sound_run events
  refine ⟨fun hvia => ?_, fun hin hvia hkeeps => ?_, votes_of_sound site nt hsound⟩
  · have hlast := lastWrite_of_wallet (of_decide_eq_true (Bool.and_eq_true_iff.mp hvia).2) rfl
    refine hlast.of_prefix fun before e hprefix happlies => ?_
    obtain ⟨l, hl, hfirst⟩ := happlies
    exact ⟨l, hl, hfirst, reported_of_allowed (hallowed before e hprefix) hl⟩
  · exact (typed_run hkeeps).2 _ (source_of_signedIn hsound hin hvia) rfl

namespace Reload

def site : Site := ⟨⟨⟨none, none, none⟩, none, none⟩, newError "Unexpected token"⟩

def account : Text := List.replicate 64 'a'

/-- The extension answers, but an account is typed before that is applied; then the page is loaded
again without the extension. -/
def events : List Event :=
  [.load true true, .status none, .answered (.array []), .signIn ("0x" ++ account) .both,
    .listed [] true .both, .load false true, .status none]

theorem allowed_events : AllAllowed step Allowed initial events :=
  allAllowed_cons trivial (allAllowed_cons trivial (allAllowed_cons trivial (allAllowed_cons trivial
    (allAllowed_cons rfl (allAllowed_cons trivial (allAllowed_cons trivial allAllowed_nil))))))

theorem keeps_events : ∀ e ∈ events, e.Keeps := by
  simp [events, Event.Keeps]

theorem voterHex_events : (run step initial events).voterHex = account := by
  decide +kernel

end Reload

open Reload in
/-- The typed account is still in charge. -/
theorem reviewer_exact_reload :
    LastWrite Event.chooses (fun _ e => e.Types account) events := by
  have h := (reviewer_exact site integersOnly allowed_events).2.1 (by decide +kernel) (by decide +kernel)
    keeps_events
  rwa [voterHex_events] at h

end Reviewer

end BoingObserver.Qa
