import BoingObserver.Context.Answer

/-!
# What the context routes answer

Any number of requests run at once and share the caches of the server; the node and the SDK answer
them in any order, and anything.

* `Sound`: every cache holds what the node said of that very key, and when.
* `served_exact`: what a request is answered from, and how old it may be.
-/

namespace BoingObserver.Context

open Js Rpc NativeUnit Oracle Tasks Contract

abbrev Moment : Type := World Server Ask.Answer

/-! ## Where the caches come from -/

/-- The request `i` goes on after code that it awaited. -/
def wentOn (i : ℕ) (time : ℤ) : Entry Ask.Answer := ⟨i, time, .turn, ()⟩

/-- The request `i` asked all of `p`, which gave `b`, and went on at `time`. -/
structure Ended {β : Type} (i : ℕ) (p : Asking β) (b : β) (time : ℤ) (w : Moment) : Prop where
  came : ∃ es, es ++ [wentOn i time] <:+: w.own i ∧ Gives p (traceOf es) b
  time_le : time ≤ w.clock

def askDirectory (network : NetworkId) : Asking (Except Failure DexContents) := do
  let factory ← Prog.query (Ask.factory network)
  let _ ← Prog.query Ask.turn
  match factory with
  | .error e => return .error e
  | .ok factory => askContents network factory

def Ask.IsPage : Ask → Prop
  | .dex _ _ => True
  | _ => False

/-- The directory lists what these answers say, and its pages came when it says or later. -/
structure Listed (network : NetworkId) (d : Directory) (es : List (Entry Ask.Answer)) : Prop where
  gives : Gives (askDirectory network) (traceOf es) (.ok ⟨d.pools, d.tokens⟩)
  after : ∀ e ∈ es, e.question.IsPage → d.time ≤ e.time

/-- The request `i` loaded the directory. -/
structure Loaded (network : NetworkId) (i : ℕ) (d : Directory) (w : Moment) : Prop where
  came : ∃ es, es <:+: w.own i ∧ Listed network d es
  time_le : d.time ≤ w.clock

/-- The request `i` tried to load the directory. -/
def LoadFailed (network : NetworkId) (i : ℕ) (e : Failure) (w : Moment) : Prop :=
  ∃ es, es <:+: w.own i ∧ Gives (askDirectory network) (traceOf es) (.error e)

/-- The vault's own storage says so; what is not configured yet is kept for a shorter time. -/
def VaultRead (network : NetworkId) (vault : Text) (c : Cached (Option VaultMeta)) (w : Moment) :
    Prop :=
  ∃ i read, Ended i (askVault network vault).run (.ok c.value) read w ∧
    c.time = if c.value.isSome then read else read - vaultTtlMs + unconfiguredTtlMs

/-- Every cache holds what the node said of that very key. -/
structure Holds (P : ResolvePlatform) (s : Server) (w : Moment) : Prop where
  directories : ∀ network d, s.directories.get network = some d → ∃ i, Loaded network i d w
  interfaces : ∀ network a c, s.interfaces.get (cacheKey network a) = some c →
    ∃ i, Ended i (askResolve P network a) c.value c.time w
  vaults : ∀ network a c, s.vaults.get (cacheKey network a) = some c → VaultRead network a c w

def Sound (P : ResolvePlatform) (w : Moment) : Prop := Holds P w.state w

variable {P : ResolvePlatform} {network : NetworkId} {w w' : Moment} {i : ℕ}

theorem Ended.later {β : Type} {p : Asking β} {b : β} {time : ℤ} (h : Ended i p b time w)
    (hlater : World.Later w w') : Ended i p b time w' := by
  obtain ⟨es, hes, hgives⟩ := h.came
  exact ⟨⟨es, hes.trans (World.own_prefix hlater i).isInfix, hgives⟩,
    h.time_le.trans hlater.clock_le⟩

theorem Loaded.later {d : Directory} (h : Loaded network i d w) (hlater : World.Later w w') :
    Loaded network i d w' := by
  obtain ⟨es, hes, hlisted⟩ := h.came
  exact ⟨⟨es, hes.trans (World.own_prefix hlater i).isInfix, hlisted⟩,
    h.time_le.trans hlater.clock_le⟩

theorem LoadFailed.later {e : Failure} (h : LoadFailed network i e w)
    (hlater : World.Later w w') : LoadFailed network i e w' := by
  obtain ⟨es, hes, hgives⟩ := h
  exact ⟨es, hes.trans (World.own_prefix hlater i).isInfix, hgives⟩

theorem VaultRead.later {a : Text} {c : Cached (Option VaultMeta)}
    (h : VaultRead network a c w) (hlater : World.Later w w') : VaultRead network a c w' := by
  obtain ⟨j, read, hended, htime⟩ := h
  exact ⟨j, read, hended.later hlater, htime⟩

theorem Holds.later {s : Server} (h : Holds P s w) (hlater : World.Later w w') :
    Holds P s w' := by
  refine ⟨fun network d hd => ?_, fun network a c hc => ?_, fun network a c hc => ?_⟩
  · obtain ⟨j, hj⟩ := h.directories network d hd
    exact ⟨j, hj.later hlater⟩
  · obtain ⟨j, hj⟩ := h.interfaces network a c hc
    exact ⟨j, hj.later hlater⟩
  · exact (h.vaults network a c hc).later hlater

theorem steady (P : ResolvePlatform) : Steady (Sound P) where
  later := by
    intro w w' h hlater hstate
    rw [Sound, hstate]
    exact Holds.later h hlater

theorem sound_initial (P : ResolvePlatform) (now : ℤ) : Sound P ⟨now, Server.initial, []⟩ := by
  refine ⟨fun network d hd => ?_, fun network a c hc => ?_, fun network a c hc => ?_⟩
  · cases hd
  · cases hc
  · cases hc

theorem length_networkText (n : NetworkId) : n.text.length = 7 := by
  cases n with
  | testnet => decide
  | mainnet => decide

theorem networkText_inj {n n' : NetworkId} (h : n.text = n'.text) : n = n' := by
  cases n with
  | testnet =>
    cases n' with
    | testnet => rfl
    | mainnet => exact absurd h (by decide)
  | mainnet =>
    cases n' with
    | testnet => exact absurd h (by decide)
    | mainnet => rfl

theorem cacheKey_word_inj {n n' : NetworkId} {a a' : Text} :
    cacheKey n a = cacheKey n' a' ↔ n = n' ∧ a = a' := by
  constructor
  · intro h
    have hlength : n.text.length = n'.text.length := by
      rw [length_networkText, length_networkText]
    obtain ⟨htext, hid⟩ := List.append_inj h hlength
    exact ⟨networkText_inj htext, (List.cons.inj hid).2⟩
  · rintro ⟨rfl, rfl⟩
    rfl

/-! ## Writing a cache -/

/-- What is said of all entries of a cache is said of them after one is written. -/
theorem forall_get_set {ν : Type} {m : Map Text ν} {p : NetworkId → Text → ν → Prop}
    {n : NetworkId} {a : Text} {v : ν} (h : ∀ n a v, m.get (cacheKey n a) = some v → p n a v)
    (hv : p n a v) (n' : NetworkId) (a' : Text) (v' : ν)
    (hget : (m.set (cacheKey n a) v).get (cacheKey n' a') = some v') : p n' a' v' := by
  rw [Map.get_set] at hget
  split at hget
  next hkey =>
    obtain ⟨rfl, rfl⟩ := cacheKey_word_inj.mp hkey
    obtain rfl := Option.some.inj hget
    exact hv
  next => exact h n' a' v' hget

theorem Sound.setDirectory {d : Directory} (h : Sound P w) (hd : Loaded network i d w) :
    Sound P (w.set fun s => { s with directories := s.directories.set network d }) := by
  have hlater := World.later_set (w := w)
    fun s => { s with directories := s.directories.set network d }
  have hkept := Holds.later h hlater
  refine ⟨fun n d' hd' => ?_, hkept.interfaces, hkept.vaults⟩
  change (w.state.directories.set network d).get n = some d' at hd'
  rw [Map.get_set] at hd'
  split at hd'
  next hn =>
    obtain rfl := Option.some.inj hd'
    exact ⟨i, hn ▸ hd.later hlater⟩
  next => exact hkept.directories n d' hd'

theorem Sound.setInterface {a : Text} {c : Cached ContractInterfaceResponse} (h : Sound P w)
    (hc : Ended i (askResolve P network a) c.value c.time w) :
    Sound P (w.set fun s =>
      { s with interfaces := s.interfaces.set (cacheKey network a) c }) := by
  have hlater := World.later_set (w := w)
    fun s => { s with interfaces := s.interfaces.set (cacheKey network a) c }
  have hkept := Holds.later h hlater
  exact ⟨hkept.directories, forall_get_set hkept.interfaces ⟨i, hc.later hlater⟩, hkept.vaults⟩

theorem Sound.setVault {a : Text} {c : Cached (Option VaultMeta)} (h : Sound P w)
    (hc : VaultRead network a c w) :
    Sound P (w.set fun s => { s with vaults := s.vaults.set (cacheKey network a) c }) := by
  have hlater := World.later_set (w := w)
    fun s => { s with vaults := s.vaults.set (cacheKey network a) c }
  have hkept := Holds.later h hlater
  exact ⟨hkept.directories, hkept.interfaces, forall_get_set hkept.vaults (hc.later hlater)⟩

/-! ## Awaiting -/

/-- What was said of a result stays true. -/
def Lasts {β : Type} (Post : β → Moment → Prop) : Prop :=
  ∀ b w w', Post b w → World.Later w w' → Post b w'

theorem safe_awaited {β : Type} {Post : β → Moment → Prop} (hlasts : Lasts Post) {code : Code β}
    (hw : Sound P w) (hcode : Safe (Sound P) i Post code w) :
    Safe (Sound P) i Post (awaited code) w := by
  refine safe_bind (steady P) hw hcode fun b w' _ _ hpost => ?_
  rw [turn, safe_query]
  intro w'' _ _ hlater _
  exact hlasts b w' _ hpost (hlater.trans World.later_answered)

theorem safe_asked {q : Ask} :
    Safe (Sound P) i
      (fun a w' => ∃ t, [⟨i, t, q, a⟩, wentOn i w'.clock] <:+ w'.own i)
      (awaited (Task.query q)) w := by
  rw [awaited, safe_query]
  intro w₁ a _ _ _
  rw [turn, safe_query]
  intro w₂ _ _ _ hown
  refine ⟨w₁.clock, w₁.own i, ?_⟩
  rw [World.own_answered_self, hown, World.own_answered_self, List.append_assoc]
  rfl

theorem safe_load {β : Type} {p : Asking β} (hw : Sound P w) :
    Safe (Sound P) i (fun b w' => Ended i p b w'.clock w') (awaited (Task.ofProg p)) w := by
  have hload : Safe (Sound P) i (fun b w' => ∃ es, es <:+ w'.own i ∧ Gives p (traceOf es) b)
      (Task.ofProg p) w :=
    safe_ofProg (steady P) hw fun es b w' _ _ hsince hgives =>
      ⟨es, hsince.own_eq ▸ List.suffix_append _ _, hgives⟩
  refine safe_bind (steady P) hw hload fun b w' _ _ ⟨es, hes, hgives⟩ => ?_
  rw [turn, safe_query]
  intro w'' _ _ _ hown
  refine ⟨⟨es, ?_, hgives⟩, le_rfl⟩
  obtain ⟨before, hbefore⟩ := hes
  refine List.IsSuffix.isInfix ⟨before, ?_⟩
  rw [World.own_answered_self, hown, ← hbefore, List.append_assoc]
  rfl

/-! ## Interfaces -/

/-- Names of a published document: some request found the deployer and verified the document. -/
def Backed (P : ResolvePlatform) (network : NetworkId) (a : Text) (v : ContractInterfaceResponse)
    (w : Moment) : Prop :=
  ∃ j t published code doc, t.map (Prog.rename (Ask.resolve network)) <:+: traceOf (w.own j) ∧
    VerifiedIn P network a t published code ∧ published.doc = some doc ∧
    v.identity.functions = doc.functions ∧ v.identity.published = some published.info

/-- An interface that is shown: a load of it ended less than ten minutes before the request. -/
structure Shown (P : ResolvePlatform) (network : NetworkId) (a : Text)
    (v : ContractInterfaceResponse) (start : ℤ) (w : Moment) : Prop where
  loaded : ∃ j time, Ended j (askResolve P network a) v time w ∧ start - interfaceTtlMs < time
  backed : v.identity.source = .published → network = .testnet ∧ Backed P network a v w

variable {start : ℤ}

theorem Ended.shown {a : Text} {v : ContractInterfaceResponse} {time : ℤ}
    (h : Ended i (askResolve P network a) v time w) (htime : start - interfaceTtlMs < time) :
    Shown P network a v start w := by
  refine ⟨⟨i, time, h, htime⟩, fun hsource => ?_⟩
  obtain ⟨es, hes, hgives⟩ := h.came
  obtain ⟨t, ht, hgives'⟩ := Gives.of_handle (B := Ask.Answer) (f := Ask.resolve network)
    (p := loadContractInterface P network a) hgives
  obtain ⟨htest, published, code, doc, hverified, hshown⟩ := published_of_gives hgives' hsource
  have hinfix : es <:+: w.own i := (List.prefix_append es _).isInfix.trans hes
  exact ⟨htest, i, t, published, code, doc, ht ▸ hinfix.map _, hverified, hshown⟩

theorem Shown.later {a : Text} {v : ContractInterfaceResponse}
    (h : Shown P network a v start w) (hlater : World.Later w w') :
    Shown P network a v start w' := by
  obtain ⟨j, time, hended, htime⟩ := h.loaded
  exact (hended.later hlater).shown htime

theorem lasts_shown {a : Text} : Lasts (fun v w => Shown P network a v start w) :=
  fun _ _ _ h hlater => h.later hlater

theorem safe_refreshInterface {a : Text} (hw : Sound P w) (hstart : start ≤ w.clock) :
    Safe (Sound P) i (fun v w' => Shown P network a v start w') (refreshInterface P network a)
      w := by
  refine safe_bind (steady P) hw (safe_load hw) fun v w' hw' hlater hended => ?_
  rw [safe_clock, safe_modify]
  refine ⟨hw'.setInterface hended, ?_⟩
  have htime : start - interfaceTtlMs < w'.clock := by
    have hle := hstart.trans hlater.clock_le
    have httl : 0 < interfaceTtlMs := by decide
    omega
  exact (hended.later (World.later_set _)).shown htime

theorem safe_resolveContractInterface {a : Text} (hw : Sound P w) (hstart : start ≤ w.clock) :
    Safe (Sound P) i (fun v w' => Shown P network a v start w')
      (resolveContractInterface P network a) w := by
  rw [resolveContractInterface, safe_state]
  split
  next => exact safe_refreshInterface hw hstart
  next hit hhit =>
    rw [safe_clock]
    split
    next hage =>
      obtain ⟨j, hended⟩ := hw.interfaces network a hit hhit
      exact hended.shown (by omega)
    next => exact safe_refreshInterface hw hstart

/-! ## The directory -/

/-- A directory that needs no load: it is young, and knows all ids or is very young. -/
structure Current (ids : List Text) (now : ℤ) (d : Directory) : Prop where
  young : now - d.time < directoryTtlMs
  known : (∃ id ∈ ids, d.knows id = false) → now - d.time ≤ directoryMinRefreshMs

/-- Where the directory of the request `i` is from, which began at `start` with this cache. -/
inductive DirectoryFor (network : NetworkId) (ids : List Text) (i : ℕ) (start : ℤ)
    (cached : Option Directory) (w : Moment) : Except Failure Directory → Prop
  | loaded {d : Directory} (h : Loaded network i d w) (hafter : start ≤ d.time) :
      DirectoryFor network ids i start cached w (.ok d)
  | kept {d : Directory} (hcached : cached = some d) (h : ∃ j, Loaded network j d w)
      (hcurrent : Current ids start d) : DirectoryFor network ids i start cached w (.ok d)
  | stale {d : Directory} {e : Failure} (hcached : cached = some d) (h : ∃ j, Loaded network j d w)
      (hfailed : LoadFailed network i e w) : DirectoryFor network ids i start cached w (.ok d)
  | failed {e : Failure} (hcached : cached = none) (hfailed : LoadFailed network i e w) :
      DirectoryFor network ids i start cached w (.error e)

variable {ids : List Text} {cached : Option Directory}

theorem DirectoryFor.later {r : Except Failure Directory}
    (h : DirectoryFor network ids i start cached w r) (hlater : World.Later w w') :
    DirectoryFor network ids i start cached w' r := by
  cases h with
  | loaded h hafter => exact .loaded (h.later hlater) hafter
  | kept hcached h hcurrent =>
    obtain ⟨j, hj⟩ := h
    exact .kept hcached ⟨j, hj.later hlater⟩ hcurrent
  | stale hcached h hfailed =>
    obtain ⟨j, hj⟩ := h
    exact .stale hcached ⟨j, hj.later hlater⟩ (hfailed.later hlater)
  | failed hcached hfailed => exact .failed hcached (hfailed.later hlater)

def LoadEnds (network : NetworkId) (i : ℕ) (start : ℤ) : Except Failure Directory → Moment → Prop
  | .ok d, w => Loaded network i d w ∧ start ≤ d.time
  | .error e, w => LoadFailed network i e w

theorem lasts_loadEnds : Lasts (LoadEnds network i start) := by
  intro r w w' h hlater
  cases r with
  | ok d => exact ⟨h.1.later hlater, h.2⟩
  | error e => exact LoadFailed.later h hlater

theorem safe_loadDirectory (hw : Sound P w) (hstart : start ≤ w.clock) :
    Safe (Sound P) i (LoadEnds network i start) (loadDirectory network) w := by
  refine safe_bind (steady P) hw safe_asked fun factory w' hw' hlater ⟨t, hasked⟩ => ?_
  rcases factory with e | factory
  · exact ⟨_, hasked.isInfix, Gives.ask (A := Ask.Answer) (q := .factory network) (.error e)
      (Gives.ask (A := Ask.Answer) (q := .turn) () (.ret _))⟩
  · change Safe _ _ _ (Task.clock >>= _) _
    rw [safe_clock]
    have hpages : Safe (Sound P) i
        (fun c w'' => ∃ es, Since i w' w'' es ∧ Gives (askContents network factory) (traceOf es) c)
        (Task.ofProg (askContents network factory)) w' :=
      safe_ofProg (steady P) hw' fun es c w'' _ _ hsince hgives => ⟨es, hsince, hgives⟩
    refine safe_bind (steady P) hw' hpages fun contents w'' _ hlater' ⟨es, hsince, hgives⟩ => ?_
    obtain ⟨before, hbefore⟩ := hasked
    have hown := hsince.own_eq
    rw [← hbefore, List.append_assoc] at hown
    have hinfix : _ <:+: w''.own i := List.IsSuffix.isInfix ⟨before, hown.symm⟩
    have hall : Gives (askDirectory network) _ contents :=
      Gives.ask (A := Ask.Answer) (q := .factory network) (.ok factory)
        (Gives.ask (A := Ask.Answer) (q := .turn) () hgives)
    cases contents with
    | error e => exact ⟨_, hinfix, hall⟩
    | ok c =>
      refine ⟨⟨⟨_, hinfix, hall, fun e he hpage => ?_⟩, hlater'.clock_le⟩,
        hstart.trans hlater.clock_le⟩
      rcases List.mem_append.mp he with he | he
      · rcases List.mem_pair.mp he with rfl | rfl
        · exact hpage.elim
        · exact hpage.elim
      · exact hsince.after e he

theorem safe_refreshDirectory (hw : Sound P w) (hstart : start ≤ w.clock)
    (hcached : ∀ d, cached = some d → ∃ j, Loaded network j d w) :
    Safe (Sound P) i (fun r w' => DirectoryFor network ids i start cached w' r)
      (refreshDirectory network cached) w := by
  refine safe_bind (steady P) hw (safe_awaited lasts_loadEnds hw (safe_loadDirectory hw hstart))
    fun r w' hw' hlater hends => ?_
  cases r with
  | ok d =>
    rw [safe_modify]
    exact ⟨hw'.setDirectory hends.1, .loaded (hends.1.later (World.later_set _)) hends.2⟩
  | error e =>
    cases cached with
    | none => exact .failed rfl hends
    | some d =>
      obtain ⟨j, hj⟩ := hcached d rfl
      exact .stale rfl ⟨j, hj.later hlater⟩ hends

theorem safe_getDirectory (hw : Sound P w) :
    Safe (Sound P) i
      (fun r w' => DirectoryFor network ids i w.clock (w.state.directories.get network) w' r)
      (getDirectory network ids) w := by
  have hsound := hw.directories network
  rw [getDirectory, safe_state]
  split
  next hnone =>
    rw [hnone]
    exact safe_refreshDirectory hw le_rfl fun d hd => by cases hd
  next hit hhit =>
    rw [hhit] at hsound ⊢
    rw [safe_clock]
    dsimp only
    split
    next hage =>
      obtain ⟨hyoung, hknown⟩ := hage
      refine .kept rfl (hsound hit rfl) ⟨hyoung, fun ⟨id, hid, hunknown⟩ => ?_⟩
      by_contra hold
      refine hknown ⟨List.any_eq_true.mpr ⟨id, hid, ?_⟩, by omega⟩
      rw [hunknown]
      rfl
    next => exact safe_refreshDirectory hw le_rfl hsound

/-! ## Vaults -/

/-- A vault that is shown; what is not configured yet was read fifteen seconds ago or later. -/
def VaultShown (network : NetworkId) (vault : Text) (v : Option VaultMeta) (start : ℤ)
    (w : Moment) : Prop :=
  ∃ j read, Ended j (askVault network vault).run (.ok v) read w ∧
    start - (if v.isSome then vaultTtlMs else unconfiguredTtlMs) < read

def VaultEnds (network : NetworkId) (vault : Text) (i : ℕ) (start : ℤ) :
    Except Failure (Option VaultMeta) → Moment → Prop
  | .ok v, w => VaultShown network vault v start w
  | .error e, w => ∃ read, Ended i (askVault network vault).run (.error e) read w

theorem VaultShown.later {vault : Text} {v : Option VaultMeta}
    (h : VaultShown network vault v start w) (hlater : World.Later w w') :
    VaultShown network vault v start w' := by
  obtain ⟨j, read, hended, hread⟩ := h
  exact ⟨j, read, hended.later hlater, hread⟩

theorem lasts_vaultEnds {vault : Text} : Lasts (VaultEnds network vault i start) := by
  intro r w w' h hlater
  cases r with
  | ok v => exact VaultShown.later h hlater
  | error e =>
    obtain ⟨read, hended⟩ := h
    exact ⟨read, hended.later hlater⟩

theorem VaultRead.shown {vault : Text} {c : Cached (Option VaultMeta)}
    (h : VaultRead network vault c w) (htime : start - vaultTtlMs < c.time) :
    VaultShown network vault c.value start w := by
  obtain ⟨j, read, hended, hkept⟩ := h
  refine ⟨j, read, hended, ?_⟩
  rw [hkept] at htime
  split at htime
  next hsome =>
    rw [if_pos hsome]
    exact htime
  next hsome =>
    rw [if_neg hsome]
    omega

theorem safe_refreshVault {vault : Text} (hw : Sound P w) (hstart : start ≤ w.clock) :
    Safe (Sound P) i (VaultEnds network vault i start) (refreshVault network vault) w := by
  refine safe_bind (steady P) hw (safe_load hw) fun r w' hw' hlater hended => ?_
  cases r with
  | error e => exact ⟨_, hended⟩
  | ok found =>
    rw [safe_clock, safe_modify]
    refine ⟨hw'.setVault ⟨i, w'.clock, hended, rfl⟩, i, w'.clock,
      hended.later (World.later_set _), ?_⟩
    have hle := hstart.trans hlater.clock_le
    have httl : 0 < vaultTtlMs ∧ 0 < unconfiguredTtlMs := by decide
    split
    · omega
    · omega

theorem safe_fetchVaultMeta {vault : Text} (hw : Sound P w) (hstart : start ≤ w.clock) :
    Safe (Sound P) i (VaultEnds network vault i start) (fetchVaultMeta network vault) w := by
  rw [fetchVaultMeta, safe_state]
  split
  next => exact safe_refreshVault hw hstart
  next hit hhit =>
    rw [safe_clock]
    split
    next hage => exact (hw.vaults network vault hit hhit).shown (by omega)
    next => exact safe_refreshVault hw hstart

/-! ## Requests -/

section

variable (P) (q : ContextQuery)

/-- The interface of a contract that neither the directory nor the well-known names explain. -/
inductive InterfaceFor (d : Directory) (start : ℤ) (w : Moment) :
    Option ContractInterfaceResponse → Prop
  | shown {v : ContractInterfaceResponse} (hneeds : q.needsResolve P d = true)
      (h : Shown P q.network q.contract v start w) : InterfaceFor d start w (some v)
  | none (hneeds : q.needsResolve P d = false) : InterfaceFor d start w none

inductive VaultFor (d : Directory) (resolved : Option ContractInterfaceResponse) (i : ℕ)
    (start : ℤ) (w : Moment) : Option VaultMeta → Prop
  | shown {v : Option VaultMeta} (hvault : q.isVault P d resolved = true)
      (h : VaultShown q.network q.contract v start w) : VaultFor d resolved i start w v
  | failed {e : Failure} {read : ℤ} (hvault : q.isVault P d resolved = true)
      (h : Ended i (askVault q.network q.contract).run (.error e) read w) :
      VaultFor d resolved i start w none
  | none (hvault : q.isVault P d resolved = false) : VaultFor d resolved i start w none

/-- Where the parts of an answer to the request `i` are from. -/
structure Drawn (begun : Moment) (i : ℕ) (src : Sources) (w : Moment) : Prop where
  directory : DirectoryFor q.network q.want i begun.clock
    (begun.state.directories.get q.network) w (.ok src.directory)
  resolved : InterfaceFor P q src.directory begun.clock w src.resolved
  vault : VaultFor P q src.directory src.resolved i begun.clock w src.vault
  tokens : ∃ r : Except Failure (Map Text TokenMeta),
    (⟨.tokens q.network ((q.tokenIds src.directory src.vault).take maxTokenLookups), r⟩ :
      (q : Ask) × q.Answer) ∈ traceOf (w.own i) ∧ src.tokens = r.toOption.getD Map.empty

/-- A context shows its sources; it fails only if nothing was cached and its own load failed. -/
def ContextFor (begun : Moment) (i : ℕ) : Except Failure TxContext → Moment → Prop
  | .ok out, w => ∃ src, q.Shows P src out ∧ Drawn P q begun i src w
  | .error e, w =>
    begun.state.directories.get q.network = none ∧ LoadFailed q.network i e w

/-- How a request ends that began in this world. -/
def Answered : Job → Moment → ℕ → Reply → Moment → Prop
  | .context q, begun, i, .context r, w =>
    ∃ r', r = r'.mapError Failure.text ∧ ContextFor P q begun i r' w
  | .interface network a, begun, _, .interface v, w => Shown P network a v begun.clock w
  | _, _, _, _, _ => False

end

variable {q : ContextQuery} {begun : Moment}

theorem InterfaceFor.later {d : Directory} {v : Option ContractInterfaceResponse}
    (h : InterfaceFor P q d start w v) (hlater : World.Later w w') :
    InterfaceFor P q d start w' v := by
  cases h with
  | shown hneeds h => exact .shown hneeds (h.later hlater)
  | none hneeds => exact .none hneeds

theorem VaultFor.later {d : Directory} {resolved : Option ContractInterfaceResponse}
    {v : Option VaultMeta} (h : VaultFor P q d resolved i start w v) (hlater : World.Later w w') :
    VaultFor P q d resolved i start w' v := by
  cases h with
  | shown hvault h => exact .shown hvault (h.later hlater)
  | failed hvault h => exact .failed hvault (h.later hlater)
  | none hvault => exact .none hvault

theorem Drawn.later {src : Sources} (h : Drawn P q begun i src w) (hlater : World.Later w w') :
    Drawn P q begun i src w' := by
  obtain ⟨r, hr, htokens⟩ := h.tokens
  have hown : w.own i ⊆ w'.own i := (World.own_prefix hlater i).subset
  exact ⟨h.directory.later hlater, h.resolved.later hlater, h.vault.later hlater, r,
    List.map_subset _ hown hr, htokens⟩

theorem lasts_contextFor : Lasts (ContextFor P q begun i) := by
  intro r w w' h hlater
  cases r with
  | ok out =>
    obtain ⟨src, hshows, hdrawn⟩ := h
    exact ⟨src, hshows, hdrawn.later hlater⟩
  | error e => exact ⟨h.1, h.2.later hlater⟩

theorem stable_answered (job : Job) : Stable (Sound P) i (Answered P job begun i) := by
  intro reply w w' h _ hlater _
  cases job with
  | context q =>
    cases reply with
    | context r =>
      obtain ⟨r', hr, hcontext⟩ := h
      exact ⟨r', hr, lasts_contextFor r' w w' hcontext hlater⟩
    | interface v => exact h.elim
  | interface network a =>
    cases reply with
    | context r => exact h.elim
    | interface v => exact Shown.later h hlater

theorem safe_resolvedFor {d : Directory} (hw : Sound P w) (hstart : start ≤ w.clock) :
    Safe (Sound P) i (fun v w' => InterfaceFor P q d start w' v) (resolvedFor P q d) w := by
  rw [resolvedFor]
  split
  next hneeds =>
    refine safe_bind (steady P) hw (safe_awaited lasts_shown hw
      (safe_resolveContractInterface hw hstart)) fun v w' _ _ hshown => ?_
    exact safe_pure.mpr (.shown hneeds hshown)
  next hneeds => exact safe_pure.mpr (.none (Bool.eq_false_iff.mpr hneeds))

theorem safe_vaultFor {d : Directory} {resolved : Option ContractInterfaceResponse}
    (hw : Sound P w) (hstart : start ≤ w.clock) :
    Safe (Sound P) i (fun v w' => VaultFor P q d resolved i start w' v)
      (vaultFor P q d resolved) w := by
  rw [vaultFor]
  split
  next hvault =>
    refine safe_bind (steady P) hw (safe_awaited lasts_vaultEnds hw
      (safe_fetchVaultMeta hw hstart)) fun r w' _ _ hends => ?_
    cases r with
    | ok v => exact safe_pure.mpr (.shown hvault hends)
    | error e =>
      obtain ⟨read, hended⟩ := hends
      exact safe_pure.mpr (.failed hvault hended)
  next hvault => exact safe_pure.mpr (.none (Bool.eq_false_iff.mpr hvault))

theorem safe_getContext (hw : Sound P w) :
    Safe (Sound P) i (ContextFor P q w i) (getContext P q) w := by
  refine safe_bind (steady P) hw (safe_awaited (fun r w w' h hlater => h.later hlater) hw
    (safe_getDirectory hw)) fun r w₁ hw₁ hlater₁ hdirectory => ?_
  cases r with
  | error e =>
    cases hdirectory with
    | failed hcached hfailed => exact safe_pure.mpr ⟨hcached, hfailed⟩
  | ok d =>
    refine safe_bind (steady P) hw₁ (safe_resolvedFor hw₁ hlater₁.clock_le)
      fun resolved w₂ hw₂ hlater₂ hresolved => ?_
    refine safe_bind (steady P) hw₂ (safe_vaultFor hw₂ (hlater₁.trans hlater₂).clock_le)
      fun vault w₃ _ hlater₃ hvault => ?_
    rw [safe_query]
    intro w₄ tokens _ hlater₄ _
    -- what was said of the parts still holds after the tokens came
    have hlater : World.Later w₃ (w₄.answered i _ tokens) := hlater₄.trans World.later_answered
    refine safe_pure.mpr ⟨⟨d, resolved, vault, _⟩, q.shows_answer P _,
      hdirectory.later ((hlater₂.trans hlater₃).trans hlater),
      hresolved.later (hlater₃.trans hlater), hvault.later hlater, tokens, ?_, rfl⟩
    refine List.mem_map.mpr ⟨⟨i, w₄.clock, _, tokens⟩, ?_, rfl⟩
    rw [World.own_answered_self]
    exact List.mem_append_right _ (List.mem_singleton.mpr rfl)

theorem safe_serve (hw : Sound P w) (job : Job) :
    Safe (Sound P) i (Answered P job w i) (serve P job) w := by
  cases job with
  | context q =>
    refine safe_bind (steady P) hw (safe_getContext hw) fun r w' _ _ hcontext => ?_
    exact safe_pure.mpr ⟨r, rfl, hcontext⟩
  | interface network a =>
    refine safe_bind (steady P) hw (safe_resolveContractInterface hw le_rfl)
      fun v w' _ _ hshown => ?_
    exact safe_pure.mpr hshown

/-- **What the context routes answer**, in every run: each part is from a load of that very key that
some request did, or this one; none is older than its cache allows, except a directory whose own
load failed. -/
theorem served_exact (P : ResolvePlatform) (now : ℤ) (events : List (Event Job Ask.Answer)) :
    (Overlap.run (step (serve P)) (Pool.initial now Server.initial) events).EndsAs (Answered P) :=
  (run_safe (steady P) (fun job _ _ => stable_answered job) (fun job _ _ hw _ => safe_serve hw job)
    (sound_initial P now) events).endsAs

end BoingObserver.Context
