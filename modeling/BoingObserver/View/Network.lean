import BoingObserver.Overlap
import BoingObserver.Rpc.Client
import BoingObserver.Rpc.Hex
import BoingObserver.UrlEncoded

/-!
# The network of a page

`explorer-href.ts`, `network-param.ts` and `NetworkProvider` of `network-context.tsx`: the network
is named in the URL of a link, or else kept from the last visit, and can be switched.

* `searchOf_href`: every link names its network.
* `network_exact`: only a configured network is ever shown, and a reload keeps it.
-/

namespace BoingObserver.View

open Js Rpc NativeUnit
open Overlap (run run_concat AllAllowed run_invariant)

/-! ## Links -/

def networkName : Text := "network"

/-- `encodeURIComponent` keeps the letters of a network. -/
def withNetwork (path : Text) (network : NetworkId) : Text :=
  path ++ (if '?' ∈ path then ['&'] else ['?']) ++ networkName ++ '=' :: network.text

/-- A path through ids; the home page if one of them is invalid. -/
def hexHref (parts : List (Text × Text)) (network : NetworkId) : Text :=
  if parts.any fun p => normalizeHex64 p.2 = [] then "/"
  else withNetwork (parts.flatMap fun p => p.1 ++ normalizeHex64 p.2) network

def explorerAssetHref (addressHex64 : Text) (network : NetworkId) : Text :=
  hexHref [("/asset/", addressHex64)] network

def explorerNftItemHref (collectionHex64 tokenIdHex64 : Text) (network : NetworkId) : Text :=
  hexHref [("/asset/", collectionHex64), ("/item/", tokenIdHex64)] network

def explorerAccountHref (addressHex64 : Text) (network : NetworkId) : Text :=
  hexHref [("/account/", addressHex64)] network

def explorerTxHref (txIdHex64 : Text) (network : NetworkId) : Text :=
  hexHref [("/tx/", txIdHex64)] network

def explorerBlockHashHref (hashHex64 : Text) (network : NetworkId) : Text :=
  hexHref [("/block/hash/", hashHex64)] network

def explorerBlockHeightHref (height : ℕ) (network : NetworkId) (txIndex : Option ℤ) : Text :=
  let path := withNetwork ("/block/" ++ decimal height) network
  match txIndex with
  | some i => if 0 ≤ i then path ++ "#tx-" ++ decimal i.toNat else path
  | none => path

inductive Href (network : NetworkId) : Text → Prop
  | asset (address : Text) : Href network (explorerAssetHref address network)
  | nftItem (collection tokenId : Text) : Href network (explorerNftItemHref collection tokenId network)
  | account (address : Text) : Href network (explorerAccountHref address network)
  | tx (txId : Text) : Href network (explorerTxHref txId network)
  | blockHash (hash : Text) : Href network (explorerBlockHashHref hash network)
  | blockHeight (height : ℕ) (txIndex : Option ℤ) :
    Href network (explorerBlockHeightHref height network txIndex)

/-- `location.search` at a link. -/
def searchOf (href : Text) : Text := (href.takeWhile (· ≠ '#')).dropWhile (· ≠ '?')

/-! ## The network parameter -/

/-- Anything other than the two names is ignored. -/
def parseNetworkParam (value : Option Text) : Option NetworkId :=
  let v := toLowerCase (trim (value.getD []))
  if v = "testnet" then some .testnet else if v = "mainnet" then some .mainnet else none

inductive NetworkSource
  | url
  | stored
  | default
  deriving DecidableEq

structure InitialNetwork where
  network : NetworkId
  source : NetworkSource
  /-- The network a link asked for and this deployment cannot serve. -/
  unavailable : Option NetworkId

/-- What is stored counts if it can be served, and testnet is for everything else. -/
def resolveStored (stored : Option NetworkId) (mainnetConfigured : Bool) : InitialNetwork :=
  if stored = some .mainnet ∧ mainnetConfigured then ⟨.mainnet, .stored, none⟩
  else if stored = some .testnet then ⟨.testnet, .stored, none⟩
  else ⟨.testnet, .default, none⟩

/-- A link beats what is stored. -/
def resolveInitialNetwork (search : Text) (stored : Option Text) (mainnetConfigured : Bool) :
    InitialNetwork :=
  match parseNetworkParam (UrlEncoded.get (UrlEncoded.parse search) networkName) with
  | some n =>
    if n = .mainnet ∧ mainnetConfigured = false then ⟨.testnet, .url, some .mainnet⟩
    else ⟨n, .url, none⟩
  | none => resolveStored (parseNetworkParam stored) mainnetConfigured

/-- The query with the network updated; none if there is nothing to change. -/
def syncNetworkInSearch (search : Text) (network : NetworkId) : Option Text :=
  let params := UrlEncoded.parse search
  if UrlEncoded.has params networkName = false ∨
      UrlEncoded.get params networkName = some network.text then none
  else
    let out := UrlEncoded.serialize (UrlEncoded.set params networkName network.text)
    some (if out = [] then [] else '?' :: out)

/-! ## The provider -/

/-- A tab with a page of the explorer: its query, the storage it shares with others, and the state
of the provider. -/
structure Tab where
  search : Text
  stored : Option Text
  network : NetworkId
  ready : Bool
  unavailableRequested : Option NetworkId

inductive TabEvent
  /-- A page is loaded at a query; the storage may refuse to be read, or to be written. -/
  | load (search : Text) (reads writes : Bool)
  /-- The visitor switches; the storage may refuse to be written, and the history to be changed. -/
  | setNetwork (n : NetworkId) (writes replaces : Bool)
  /-- A link is followed without a load. -/
  | goto (search : Text)
  /-- Another tab writes. -/
  | otherTab (stored : Option Text)

section

variable (env : RpcEnv)

def Tab.load (t : Tab) (search : Text) (reads writes : Bool) : Tab :=
  let r := resolveInitialNetwork search (if reads then t.stored else none) (isMainnetConfigured env)
  { search
    stored := if r.source = .url ∧ r.unavailable = none ∧ writes then some r.network.text
      else t.stored
    network := r.network
    ready := true
    unavailableRequested := r.unavailable }

def Tab.setNetwork (t : Tab) (n : NetworkId) (writes replaces : Bool) : Tab :=
  let next : NetworkId := if n = .mainnet ∧ isMainnetConfigured env then .mainnet else .testnet
  { t with
    network := next
    unavailableRequested := none
    stored := if writes then some next.text else t.stored
    search := if replaces then (syncNetworkInSearch t.search next).getD t.search else t.search }

def Tab.step (t : Tab) : TabEvent → Tab
  | .load search reads writes => t.load env search reads writes
  | .setNetwork n writes replaces => t.setNetwork env n writes replaces
  | .goto search => { t with search }
  | .otherTab stored => { t with stored }

/-- The page before its first effect. -/
def Tab.initial (search : Text) (stored : Option Text) : Tab :=
  ⟨search, stored, .testnet, false, none⟩

/-- The visitor uses the explorer alone: the storage and the history do as they are told, no other
tab writes, and a link is the explorer's own, for the network shown, or names none. -/
def Undisturbed (t : Tab) : TabEvent → Prop
  | .load _ reads writes => reads ∧ writes
  | .setNetwork _ writes replaces => writes ∧ replaces
  | .goto search => (∃ href, Href t.network href ∧ search = searchOf href) ∨
      UrlEncoded.get (UrlEncoded.parse search) networkName = none
  | .otherTab _ => False

/-! ## Links name their network -/

theorem parseNetworkParam_text (n : NetworkId) : parseNetworkParam (some n.text) = some n := by
  cases n <;> decide

/-- A character of a path: nothing of a URL begins with it. -/
def isPathChar (c : Char) : Bool := c ≠ '?' ∧ c ≠ '#'

theorem isPathChar_lowerChar {c : Char} (h : isAnyHexDigit c = true) :
    isPathChar (lowerChar c) = true := by
  have hall : ∀ n < 103, isAnyHexDigit (Char.ofNat n) = true →
      isPathChar (lowerChar (Char.ofNat n)) = true := by decide
  have hlt : c.toNat < 103 := by
    rcases isAnyHexDigit_iff.mp h with h | h | h <;> omega
  rw [← Char.ofNat_toNat c] at h ⊢
  exact hall c.toNat hlt h

theorem isPathChar_normalizeHex64 (s : Text) : ∀ c ∈ normalizeHex64 s, isPathChar c = true := by
  rw [normalizeHex64]
  split_ifs with h
  · intro c hc
    obtain ⟨d, hd, rfl⟩ := List.mem_map.mp hc
    exact isPathChar_lowerChar (List.all_eq_true.mp (Bool.and_eq_true_iff.mp h).2 d hd)
  · exact List.forall_mem_nil _

theorem isPathChar_decimal (n : ℕ) : ∀ c ∈ decimal n, isPathChar c = true := by
  intro c hc
  have hdigit := (isDigits_decimal n).2 c hc
  refine decide_eq_true ⟨?_, ?_⟩
  · rintro rfl
    exact absurd hdigit (by decide)
  · rintro rfl
    exact absurd hdigit (by decide)

def networkQuery (n : NetworkId) : Text := '?' :: (networkName ++ '=' :: n.text)

theorem searchOf_withNetwork {path : Text} (h : ∀ c ∈ path, isPathChar c = true) (n : NetworkId)
    {rest : Text} (hrest : rest.takeWhile (· ≠ '#') = []) :
    searchOf (withNetwork path n ++ rest) = networkQuery n := by
  have hmark : '?' ∉ path := fun hc => absurd (h '?' hc) (by decide)
  have hpath : withNetwork path n = path ++ networkQuery n := by
    rw [withNetwork, if_neg hmark, networkQuery]
    simp
  have hquery : ∀ c ∈ networkQuery n, decide (c ≠ '#') = true := by
    refine List.all_eq_true.mp ?_
    cases n <;> decide
  have hall : ∀ c ∈ path ++ networkQuery n, decide (c ≠ '#') = true := by
    intro c hc
    rcases List.mem_append.mp hc with hc | hc
    · exact decide_eq_true (of_decide_eq_true (h c hc)).2
    · exact hquery c hc
  have hskip : ∀ c ∈ path, decide (c ≠ '?') = true :=
    fun c hc => decide_eq_true (of_decide_eq_true (h c hc)).1
  rw [searchOf, hpath, List.takeWhile_append_of_pos hall, hrest, List.append_nil,
    List.dropWhile_append_of_pos hskip, networkQuery, List.dropWhile_cons_of_neg (by simp)]

theorem searchOf_hexHref {parts : List (Text × Text)} (n : NetworkId)
    (h : ∀ p ∈ parts, ∀ c ∈ p.1, isPathChar c = true) :
    searchOf (hexHref parts n) = [] ∨ searchOf (hexHref parts n) = networkQuery n := by
  rw [hexHref]
  split_ifs with hinvalid
  · exact .inl (by decide)
  · right
    rw [← List.append_nil (withNetwork _ n)]
    refine searchOf_withNetwork (fun c hc => ?_) n rfl
    obtain ⟨p, hp, hc⟩ := List.mem_flatMap.mp hc
    rcases List.mem_append.mp hc with hc | hc
    · exact h p hp c hc
    · exact isPathChar_normalizeHex64 p.2 c hc

/-- **Every link names its network**, or leads home. -/
theorem searchOf_href {n : NetworkId} {href : Text} (h : Href n href) :
    searchOf href = [] ∨ searchOf href = networkQuery n := by
  cases h with
  | asset address =>
    exact searchOf_hexHref n (List.forall_mem_singleton.mpr
      (List.all_eq_true.mp (by decide : ("/asset/" : Text).all isPathChar = true)))
  | nftItem collection tokenId =>
    exact searchOf_hexHref n (List.forall_mem_cons.mpr
      ⟨List.all_eq_true.mp (by decide : ("/asset/" : Text).all isPathChar = true),
        List.forall_mem_singleton.mpr
          (List.all_eq_true.mp (by decide : ("/item/" : Text).all isPathChar = true))⟩)
  | account address =>
    exact searchOf_hexHref n (List.forall_mem_singleton.mpr
      (List.all_eq_true.mp (by decide : ("/account/" : Text).all isPathChar = true)))
  | tx txId =>
    exact searchOf_hexHref n (List.forall_mem_singleton.mpr
      (List.all_eq_true.mp (by decide : ("/tx/" : Text).all isPathChar = true)))
  | blockHash hash =>
    exact searchOf_hexHref n (List.forall_mem_singleton.mpr
      (List.all_eq_true.mp (by decide : ("/block/hash/" : Text).all isPathChar = true)))
  | blockHeight height txIndex =>
    have hpath : ∀ c ∈ ("/block/" : Text) ++ decimal height, isPathChar c = true := by
      intro c hc
      rcases List.mem_append.mp hc with hc | hc
      · exact List.all_eq_true.mp (by decide : ("/block/" : Text).all isPathChar = true) c hc
      · exact isPathChar_decimal height c hc
    have hplain := searchOf_withNetwork hpath n (show ([] : Text).takeWhile (· ≠ '#') = [] from rfl)
    rw [List.append_nil] at hplain
    right
    cases txIndex with
    | none => exact hplain
    | some i =>
      rw [explorerBlockHeightHref]
      split_ifs with hi
      · rw [List.append_assoc]
        exact searchOf_withNetwork hpath n rfl
      · exact hplain

/-! ## The first page -/

variable {search : Text} {stored : Option Text} {configured : Bool}

def asked (search : Text) : Option NetworkId :=
  parseNetworkParam (UrlEncoded.get (UrlEncoded.parse search) networkName)

theorem asked_networkQuery (n : NetworkId) : asked (networkQuery n) = some n := by
  cases n <;> decide

theorem resolve_mainnet (h : (resolveInitialNetwork search stored configured).network = .mainnet) :
    configured = true := by
  rw [resolveInitialNetwork] at h
  split at h
  · next n hn =>
    split_ifs at h with hunavailable
    cases configured with
    | true => rfl
    | false => exact absurd ⟨h, rfl⟩ hunavailable
  · rw [resolveStored] at h
    split_ifs at h with hstored
    exact hstored.2

theorem resolve_unavailable {n : NetworkId}
    (h : (resolveInitialNetwork search stored configured).unavailable = some n) :
    n = .mainnet ∧ configured = false := by
  rw [resolveInitialNetwork] at h
  split at h
  · split_ifs at h with hunavailable
    · exact ⟨(Option.some.inj h).symm, hunavailable.2⟩
  · rw [resolveStored] at h
    split_ifs at h

theorem resolve_of_asked_none (h : asked search = none) (stored : Option Text) (configured : Bool) :
    (resolveInitialNetwork search stored configured).network =
      (resolveInitialNetwork [] stored configured).network := by
  have hnil : asked [] = none := by decide
  rw [asked] at h hnil
  rw [resolveInitialNetwork, resolveInitialNetwork, h, hnil]

theorem resolve_of_asked {n : NetworkId} (h : asked search = some n)
    (hn : n = .mainnet → configured = true) (stored : Option Text) :
    resolveInitialNetwork search stored configured = ⟨n, .url, none⟩ := by
  rw [asked] at h
  rw [resolveInitialNetwork, h]
  refine if_neg ?_
  rintro ⟨hmainnet, hfalse⟩
  rw [hn hmainnet] at hfalse
  cases hfalse

theorem resolve_of_stored {n : NetworkId} (hn : n = .mainnet → configured = true) :
    (resolveInitialNetwork [] (some n.text) configured).network = n := by
  have hnil : asked [] = none := by decide
  rw [asked] at hnil
  rw [resolveInitialNetwork, hnil, parseNetworkParam_text]
  cases n with
  | testnet => rfl
  | mainnet => rw [hn rfl]; rfl

/-! ## Switching -/

def synced (search : Text) (n : NetworkId) : Text := (syncNetworkInSearch search n).getD search

theorem parse_written (params : UrlEncoded.Params) :
    UrlEncoded.parse (if UrlEncoded.serialize params = [] then []
      else '?' :: UrlEncoded.serialize params) = params := by
  obtain ⟨hplain, hmark⟩ := UrlEncoded.parse_serialize params
  split_ifs with hempty
  · rw [← hempty]
    exact hplain
  · exact hmark

/-- What a switch reads in the query afterwards: the network, if the query named one before, and
everything else as it was. -/
theorem get_synced (search : Text) (n : NetworkId) (name : Text) :
    UrlEncoded.get (UrlEncoded.parse (synced search n)) name =
      if name = networkName then
        (UrlEncoded.get (UrlEncoded.parse search) networkName).map fun _ => n.text
      else UrlEncoded.get (UrlEncoded.parse search) name := by
  have hhas := UrlEncoded.has_eq_isSome (UrlEncoded.parse search) networkName
  rw [synced, syncNetworkInSearch]
  cases hget : UrlEncoded.get (UrlEncoded.parse search) networkName with
  | none =>
    rw [hget] at hhas
    rw [if_pos (.inl hhas), Option.getD_none]
    split_ifs with hname
    · rw [hname, hget, Option.map_none]
    · rfl
  | some value =>
    rw [hget] at hhas
    by_cases hvalue : value = n.text
    · rw [if_pos (.inr (congrArg some hvalue)), Option.getD_none]
      split_ifs with hname
      · rw [hname, hget, hvalue, Option.map_some]
      · rfl
    · have hkeep : ¬ (UrlEncoded.has (UrlEncoded.parse search) networkName = false ∨
          some value = some n.text) := by
        rintro (hfalse | heq)
        · cases hhas.symm.trans hfalse
        · exact hvalue (Option.some.inj heq)
      rw [if_neg hkeep, Option.getD_some, parse_written]
      split_ifs with hname
      · rw [hname, UrlEncoded.get_set, Option.map_some]
      · exact UrlEncoded.get_set_of_ne _ hname _

/-! ## Runs -/

/-- A load shows what can be served, and asks for the rest. -/
structure Served (t : Tab) : Prop where
  network : t.network = .mainnet → isMainnetConfigured env = true
  unavailable : ∀ n, t.unavailableRequested = some n →
    n = .mainnet ∧ isMainnetConfigured env = false

/-- What is shown is what a load would show, at the page's own query and at one that names none. -/
structure Settled (t : Tab) : Prop where
  served : t.network = .mainnet → isMainnetConfigured env = true
  here : (resolveInitialNetwork t.search t.stored (isMainnetConfigured env)).network = t.network
  plain : (resolveInitialNetwork [] t.stored (isMainnetConfigured env)).network = t.network

variable {env} {t : Tab}

theorem served_step (h : Served env t) (e : TabEvent) : Served env (t.step env e) := by
  cases e with
  | load search reads writes => exact ⟨resolve_mainnet, fun _ => resolve_unavailable⟩
  | setNetwork n writes replaces =>
    refine ⟨fun hn => ?_, fun n hn => by cases hn⟩
    rw [Tab.step, Tab.setNetwork] at hn
    dsimp only at hn
    split_ifs at hn with hmainnet
    exact hmainnet.2
  | goto search => exact ⟨h.network, h.unavailable⟩
  | otherTab stored => exact ⟨h.network, h.unavailable⟩

theorem served_run (search : Text) (stored : Option Text) (events : List TabEvent) :
    Served env (run (Tab.step env) (Tab.initial search stored) events) := by
  induction events using List.reverseRecOn with
  | nil =>
    refine ⟨fun hn => ?_, fun n hn => ?_⟩
    · cases hn
    · cases hn
  | append_singleton events e ih =>
    rw [run_concat]
    exact served_step ih e

theorem asked_of_get_none (h : UrlEncoded.get (UrlEncoded.parse search) networkName = none) :
    asked search = none := by
  rw [asked, h]
  decide

theorem resolve_testnet (search : Text) (stored : Option Text) :
    (resolveInitialNetwork search stored false).network = .testnet := by
  cases hn : (resolveInitialNetwork search stored false).network with
  | testnet => rfl
  | mainnet => cases resolve_mainnet hn

theorem source_of_asked_none (h : asked search = none) :
    (resolveInitialNetwork search stored configured).source ≠ .url := by
  rw [asked] at h
  rw [resolveInitialNetwork, h]
  dsimp only
  rw [resolveStored]
  split_ifs <;> decide

theorem load_stored_eq (t : Tab)
    (h : ¬ ((resolveInitialNetwork search t.stored (isMainnetConfigured env)).source = .url ∧
      (resolveInitialNetwork search t.stored (isMainnetConfigured env)).unavailable = none)) :
    (t.load env search true true).stored = t.stored :=
  if_neg fun hwrites => h ⟨hwrites.1, hwrites.2.1⟩

/-- **A load settles the page.** -/
theorem settled_load (t : Tab) (search : Text) : Settled env (t.load env search true true) := by
  cases hasked : asked search with
  | none =>
    have hkept := @load_stored_eq env search t fun hurl => source_of_asked_none hasked hurl.1
    refine ⟨resolve_mainnet, ?_, ?_⟩
    · rw [hkept]
      rfl
    · rw [hkept]
      exact (resolve_of_asked_none hasked t.stored _).symm
  | some n =>
    by_cases hn : n = .mainnet → isMainnetConfigured env = true
    · have hr := resolve_of_asked hasked hn t.stored
      have hload : t.load env search true true = ⟨search, some n.text, n, true, none⟩ := by
        rw [Tab.load]
        simp [hr]
      rw [hload]
      exact ⟨hn, congrArg InitialNetwork.network (resolve_of_asked hasked hn _),
        resolve_of_stored hn⟩
    · obtain ⟨rfl, hfalse⟩ := Classical.not_imp.mp hn
      have hconfigured := Bool.eq_false_of_not_eq_true hfalse
      refine ⟨resolve_mainnet, ?_, ?_⟩
      · rw [Tab.load, hconfigured, resolve_testnet, resolve_testnet]
      · rw [Tab.load, hconfigured, resolve_testnet, resolve_testnet]

/-- **An undisturbed step keeps the page settled.** -/
theorem settled_step (t : Tab) (e : TabEvent) (h : Settled env t) (he : Undisturbed t e) :
    Settled env (t.step env e) := by
  cases e with
  | load search reads writes =>
    obtain ⟨rfl, rfl⟩ := he
    exact settled_load t search
  | setNetwork n writes replaces =>
    obtain ⟨rfl, rfl⟩ := he
    obtain ⟨next, hnext, hstep⟩ : ∃ next : NetworkId,
        (next = .mainnet → isMainnetConfigured env = true) ∧
          t.step env (.setNetwork n true true) =
            ⟨synced t.search next, some next.text, next, t.ready, none⟩ := by
      refine ⟨if n = .mainnet ∧ isMainnetConfigured env then .mainnet else .testnet, ?_, rfl⟩
      split_ifs with hmainnet
      · exact fun _ => hmainnet.2
      · exact fun e => by cases e
    have hget := get_synced t.search next networkName
    rw [if_pos rfl] at hget
    rw [hstep]
    refine ⟨hnext, ?_, resolve_of_stored hnext⟩
    cases hhere : UrlEncoded.get (UrlEncoded.parse t.search) networkName with
    | none =>
      rw [hhere, Option.map_none] at hget
      exact (resolve_of_asked_none (asked_of_get_none hget) _ _).trans (resolve_of_stored hnext)
    | some value =>
      rw [hhere, Option.map_some] at hget
      have hasked : asked (synced t.search next) = some next := by
        rw [asked, hget, parseNetworkParam_text]
      exact congrArg InitialNetwork.network (resolve_of_asked hasked hnext _)
  | goto search =>
    refine ⟨h.served, ?_, h.plain⟩
    rcases he with ⟨href, hhref, rfl⟩ | hnone
    · rcases searchOf_href hhref with hhome | hquery
      · rw [Tab.step, hhome]
        exact h.plain
      · have hasked : asked (searchOf href) = some t.network := by
          rw [hquery, asked_networkQuery]
        exact congrArg InitialNetwork.network (resolve_of_asked hasked h.served _)
    · exact (resolve_of_asked_none (asked_of_get_none hnone) _ _).trans h.plain
  | otherTab stored => exact he.elim

/-- **The network of a page.**  Only a network that can be served is ever shown, whatever links,
storage and other tabs say, and only mainnet without an endpoint is reported as unavailable; while
the visitor uses the explorer alone, a reload shows the network that is shown; and a switch leaves
every other parameter of the URL as it was. -/
theorem network_exact (env : RpcEnv) (search : Text) (stored : Option Text) :
    (∀ events, let t := run (Tab.step env) (Tab.initial search stored) events
      (∃ url, getRpcBaseUrl env t.network = .ok url) ∧
        ∀ n, t.unavailableRequested = some n → n = .mainnet ∧ isMainnetConfigured env = false) ∧
      (∀ events, let first := (Tab.initial search stored).load env search true true
        AllAllowed (Tab.step env) Undisturbed first events →
          let t := run (Tab.step env) first events
          (t.load env t.search true true).network = t.network) ∧
      ∀ t n writes name, name ≠ networkName →
        UrlEncoded.get (UrlEncoded.parse (Tab.setNetwork env t n writes true).search) name =
          UrlEncoded.get (UrlEncoded.parse t.search) name := by
  refine ⟨fun events => ?_, fun events hevents => ?_, fun t n writes name hname => ?_⟩
  · obtain ⟨hnetwork, hunavailable⟩ := @served_run env search stored events
    refine ⟨?_, hunavailable⟩
    cases hn : (run (Tab.step env) (Tab.initial search stored) events).network with
    | testnet => exact ⟨_, rfl⟩
    | mainnet =>
      rw [getRpcBaseUrl, if_pos (hnetwork hn)]
      exact ⟨_, rfl⟩
  · exact (run_invariant (settled_load _ search) settled_step hevents).here
  · exact (get_synced t.search _ name).trans (if_neg hname)

end

/-- A visitor who comes by a link to mainnet, follows a link to a block and switches to testnet. -/
theorem network_exact_switched :
    let env : RpcEnv := ⟨none, some "https://mainnet-rpc.boing.network", none⟩
    let first := (Tab.initial "?network=mainnet" none).load env "?network=mainnet" true true
    let t := run (Tab.step env) first
      [.goto (searchOf (explorerBlockHeightHref 12 .mainnet (some 3))),
        .setNetwork .testnet true true]
    (t.load env t.search true true).network = t.network :=
  (network_exact _ "?network=mainnet" none).2.1 _
    (Overlap.allAllowed_cons (.inl ⟨_, .blockHeight 12 (some 3), rfl⟩)
      (Overlap.allAllowed_cons ⟨rfl, rfl⟩ Overlap.allAllowed_nil))

end BoingObserver.View
