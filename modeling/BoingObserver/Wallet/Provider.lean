import BoingObserver.Wallet.Popup

/-!
# The provider

`createBoingWebWalletProvider` in popup mode: requests by method, the current chain, and the
accounts that are kept for the session.

* `stored_granted`: the accounts kept are those that the wallet gave last.
-/

namespace BoingObserver.Wallet

open Js
open Overlap (run run_concat)

def methodAliases : List (Text × Text) :=
  [("eth_requestAccounts", "boing_requestAccounts"), ("eth_accounts", "boing_accounts"),
    ("eth_chainId", "boing_chainId"), ("personal_sign", "boing_signMessage"),
    ("eth_sendTransaction", "boing_sendTransaction"),
    ("eth_signTransaction", "boing_signTransaction")]

/-- The method a caller names; none if the table inherits a property of that name. -/
def methodOf (m : Text) : Option Text :=
  match recordGet methodAliases m with
  | .own method => some method
  | .inherited => none
  | .absent => some m

structure Provider where
  chainId : Text
  page : List Popup
  /-- The requests whose result is kept as the accounts. -/
  awaiting : List ℕ
  /-- What is read from the session's storage; none if there is nothing, or no JSON text. -/
  stored : Option Value
  emitted : List (Text × Value)

/-- What a call gives at once, or the number of the request it awaits. -/
inductive Reply
  | value (v : Value)
  | error (e : WalletError)
  | awaits (k : ℕ)

inductive ProviderEvent
  /-- A call; the browser gives the request its id and window, if it makes one. -/
  | call (m : Text) (params : List Value) (id : Text) (now : ℤ) (window : Option Win)
  | page (e : Event)
  | disconnect

def Provider.initial (chainId : Text) : Provider := ⟨toLowerCase chainId, [], [], none, []⟩

/-- The listeners of the event `ev` are called. -/
def Provider.emit (s : Provider) (ev : Text) (arg : Value) : Provider :=
  { s with emitted := s.emitted ++ [(ev, arg)] }

def Provider.storedAccounts (s : Provider) : List Value := (s.stored.bind Value.asArray?).getD []

/-- `/^0x[0-9a-f]+$/` -/
def isChainId (s : Text) : Bool := s.take 2 = "0x" && s.drop 2 ≠ [] && (s.drop 2).all isHexDigit

/-- `typeof p === "string" ? p : p?.chainId ?? ""` -/
def chainIdOf (p : Value) : Value :=
  match p with
  | .string s => .string s
  | p => (p.get "chainId").orElse (.string [])

def invalidChainId : WalletError :=
  .wallet (.number (.finite (-32602))) (.string "Invalid chainId") (.string "BOING_INVALID_PARAMS")

def unsupportedMethod (m : Text) : WalletError :=
  .wallet (.number (.ofNat 4200))
    (.string ("Method not supported by Boing Express web wallet: " ++ m))
    (.string "BOING_WEB_UNSUPPORTED_METHOD")

def Provider.switchChain (s : Provider) (params : List Value) : Reply × Provider :=
  match chainIdOf (params.head?.getD .undefined) with
  | .string p =>
    let next := toLowerCase p
    if ¬ isChainId next then (.error invalidChainId, s)
    else if next ≠ s.chainId then
      (.value .null, { s with chainId := next }.emit "chainChanged" (.string next))
    else (.value .null, s)
  | _ => (.error .typeError, s)

section

variable (walletOrigin : Text) (loc : Location) (reload : Value → Option Value)

/-- Make a request for the current chain; its number is its place on the page. -/
def Provider.run (s : Provider) (method : BoingWebMethod) (params : List Value) (id : Text) (now : ℤ)
    (window : Option Win) : Reply × Provider :=
  let req := createBoingWebRequest loc id now method params s.chainId
  (.awaits s.page.length, { s with page := step walletOrigin s.page (.opened req window) })

/-- `request({ method: m, params })` -/
def Provider.request (s : Provider) (m : Text) (params : List Value) (id : Text) (now : ℤ)
    (window : Option Win) : Reply × Provider :=
  match methodOf m with
  | none => (.error (unsupportedMethod m), s)
  | some method =>
    if method = "boing_chainId" then (.value (.string s.chainId), s)
    else if method = "boing_accounts" then (.value (.array s.storedAccounts), s)
    else if method = "boing_switchChain" then s.switchChain params
    else if method = "boing_requestAccounts" then
      let (reply, s') := s.run walletOrigin loc .requestAccounts [] id now window
      (reply, { s' with awaiting := s'.awaiting ++ [s.page.length] })
    else if method = "boing_signMessage" then
      s.run walletOrigin loc .signMessage (params.take 1) id now window
    else if method = "boing_signTransaction" then
      s.run walletOrigin loc .signTransaction (params.take 1) id now window
    else if method = "boing_sendTransaction" then
      s.run walletOrigin loc .sendTransaction (params.take 1) id now window
    else (.error (unsupportedMethod m), s)

/-- What the request with the number `k` returns, if the page's step makes it return. -/
def returnedNow (page page' : List Popup) (k : ℕ) : Option Value :=
  match (page[k]?).bind Popup.outcome, (page'[k]?).bind Popup.outcome with
  | none, some (.resolved v) => some v
  | _, _ => none

/-- The accounts of a request that has returned are kept.  `reload` is what `JSON.parse` gives for
the text of a value. -/
def Provider.keepAccounts (s : Provider) (accounts : Value) : Provider :=
  { s with stored := reload accounts }.emit "accountsChanged" accounts

def Provider.react (s : Provider) (e : Event) : Provider :=
  let page' := step walletOrigin s.page e
  (s.awaiting.filterMap (returnedNow s.page page')).foldl (Provider.keepAccounts reload)
    { s with page := page' }

def Provider.disconnect (s : Provider) : Provider :=
  { s with stored := none }.emit "accountsChanged" (.array [])

def Provider.step (s : Provider) : ProviderEvent → Provider
  | .call m params id now window => (s.request walletOrigin loc m params id now window).2
  | .page e => s.react walletOrigin reload e
  | .disconnect => s.disconnect

/-! ## Where accounts come from -/

/-- The request awaited for the accounts is one for accounts, made by this page. -/
def AwaitsAccounts (s : Provider) : Prop :=
  ∀ k ∈ s.awaiting, ∃ p, s.page[k]? = some p ∧ p.req.method = .requestAccounts ∧
    p.req.origin = loc.origin

/-- The message makes an open request for accounts return: the wallet's window answers it. -/
def Grants (s : Provider) (m : Message) (accounts : Value) : Prop :=
  ∃ k ∈ s.awaiting, ∃ p w, s.page[k]? = some p ∧ p.outcome = none ∧ p.window = some w ∧
    p.req.method = .requestAccounts ∧ p.req.origin = loc.origin ∧ m.origin = walletOrigin ∧
    m.source = w ∧ Answers m.data p.req.expected ∧ (m.data.get "error").truthy = false ∧
    accounts = m.data.get "result"

variable {walletOrigin loc reload} {s : Provider}

theorem react_req (p : Popup) (k : ℕ) (e : Event) :
    (p.react walletOrigin k e).req = p.req := by
  rw [Popup.react]
  split
  next w ho hw =>
    cases reaction walletOrigin p.req w k e <;> rfl
  next => rfl

theorem step_getElem? {page : List Popup} {k : ℕ} {p : Popup} (h : page[k]? = some p) (e : Event) :
    (step walletOrigin page e)[k]? = some (p.react walletOrigin k e) :=
  run_getElem? h [e]

theorem foldl_keepAccounts (vs : List Value) :
    let s' := vs.foldl (Provider.keepAccounts reload) s
    s'.page = s.page ∧ s'.awaiting = s.awaiting ∧ s'.chainId = s.chainId ∧
      s'.stored = (vs.getLast?.elim s.stored reload) := by
  induction vs using List.reverseRecOn with
  | nil => exact ⟨rfl, rfl, rfl, rfl⟩
  | append_singleton vs v ih =>
    obtain ⟨hpage, hawaiting, hchain, -⟩ := ih
    rw [List.foldl_concat, List.getLast?_concat]
    exact ⟨hpage, hawaiting, hchain, rfl⟩

theorem verdict_of_react {p : Popup} {w : Win} {k : ℕ} {e : Event} {o : Outcome}
    (ho : p.outcome = none) (hw : p.window = some w)
    (h : (p.react walletOrigin k e).outcome = some o) :
    (reaction walletOrigin p.req w k e).verdict = some o := by
  have hreact : p.react walletOrigin k e =
      p.apply walletOrigin w (reaction walletOrigin p.req w k e) := by
    rw [Popup.react, ho, hw]
  rw [hreact] at h
  cases hr : reaction walletOrigin p.req w k e with
  | ignore =>
    rw [hr, Popup.apply, ho] at h
    cases h
  | post =>
    rw [hr] at h
    cases ho.symm.trans h
  | settle o' =>
    rw [hr] at h
    exact h

/-- A request that returns at an event is answered by the wallet's window. -/
theorem grants_of_returnedNow (hawaits : AwaitsAccounts loc s) {e : Event} {k : ℕ} {v : Value}
    (hk : k ∈ s.awaiting) (h : returnedNow s.page (step walletOrigin s.page e) k = some v) :
    ∃ m, e = .message m ∧ Grants walletOrigin loc s m v := by
  obtain ⟨p, hp, hmethod, horigin⟩ := hawaits k hk
  rw [returnedNow, hp, step_getElem? hp, Option.bind_some, Option.bind_some] at h
  cases ho : p.outcome with
  | some o =>
    rw [ho] at h
    cases h
  | none =>
    cases hr : (p.react walletOrigin k e).outcome with
    | none =>
      rw [ho, hr] at h
      cases h
    | some o =>
      rw [ho, hr] at h
      cases o with
      | rejected err => cases h
      | resolved v' =>
        obtain rfl := Option.some.inj h
        cases hw : p.window with
        | none =>
          rw [Popup.react, ho, hw] at hr
          cases ho.symm.trans hr
        | some w =>
          obtain ⟨m, rfl, hm, hsource, hanswers, herror, hresult⟩ :=
            reaction_resolved (verdict_of_react ho hw hr)
          exact ⟨m, rfl, k, hk, p, w, hp, ho, hw, hmethod, horigin, hm, hsource, hanswers, herror,
            hresult⟩

/-! ## Steps -/

/-- What a call does to the page and the accounts: nothing, or it makes a request; one for accounts
is awaited. -/
inductive CallEffect (walletOrigin : Text) (loc : Location) (s s' : Provider) : Prop
  | quiet (page : s'.page = s.page) (awaiting : s'.awaiting = s.awaiting)
      (stored : s'.stored = s.stored)
  | request (req : BoingWebRequest) (window : Option Win)
      (page : s'.page = step walletOrigin s.page (.opened req window))
      (awaiting : s'.awaiting = s.awaiting) (stored : s'.stored = s.stored)
  | accounts (req : BoingWebRequest) (window : Option Win) (method : req.method = .requestAccounts)
      (origin : req.origin = loc.origin)
      (page : s'.page = step walletOrigin s.page (.opened req window))
      (awaiting : s'.awaiting = s.awaiting ++ [s.page.length]) (stored : s'.stored = s.stored)

theorem switchChain_effect (params : List Value) :
    CallEffect walletOrigin loc s (s.switchChain params).2 := by
  rw [Provider.switchChain]
  cases chainIdOf (params.head?.getD .undefined) with
  | string p =>
    change CallEffect walletOrigin loc s (if _ then _ else if _ then _ else _ : Reply × Provider).2
    split_ifs <;> exact .quiet rfl rfl rfl
  | _ => exact .quiet rfl rfl rfl

/-- **What a call does.** -/
theorem request_effect (m : Text) (params : List Value) (id : Text) (now : ℤ)
    (window : Option Win) :
    CallEffect walletOrigin loc s (s.request walletOrigin loc m params id now window).2 := by
  rw [Provider.request]
  cases methodOf m with
  | none => exact .quiet rfl rfl rfl
  | some method =>
    dsimp only
    split_ifs
    · exact .quiet rfl rfl rfl
    · exact .quiet rfl rfl rfl
    · exact switchChain_effect params
    · exact .accounts _ window rfl rfl rfl rfl rfl
    · exact .request _ window rfl rfl rfl
    · exact .request _ window rfl rfl rfl
    · exact .request _ window rfl rfl rfl
    · exact .quiet rfl rfl rfl

/-- The requests awaited stay on the page when events happen to it. -/
theorem AwaitsAccounts.step {s' : Provider} (h : AwaitsAccounts loc s) (e : Event)
    (hpage : s'.page = Wallet.step walletOrigin s.page e) (hawaiting : s'.awaiting = s.awaiting) :
    AwaitsAccounts loc s' := by
  intro k hk
  rw [hawaiting] at hk
  obtain ⟨p, hp, hmethod, horigin⟩ := h k hk
  rw [hpage]
  refine ⟨_, step_getElem? hp e, ?_, ?_⟩
  · rw [react_req]
    exact hmethod
  · rw [react_req]
    exact horigin

theorem length_step_opened (page : List Popup) (req : BoingWebRequest) (window : Option Win) :
    (Wallet.step walletOrigin page (.opened req window))[page.length]? =
      some (Popup.start req window) := by
  rw [Wallet.step, List.getElem?_append_right (by simp)]
  simp

/-- **A step keeps the requests awaited**: they are for accounts, and made by this page. -/
theorem awaitsAccounts_step (h : AwaitsAccounts loc s) (e : ProviderEvent) :
    AwaitsAccounts loc (s.step walletOrigin loc reload e) := by
  cases e with
  | call m params id now window =>
    cases @request_effect walletOrigin loc s m params id now window with
    | quiet hpage hawaiting hstored =>
      intro k hk
      rw [Provider.step, hawaiting] at hk
      rw [Provider.step, hpage]
      exact h k hk
    | request req window hpage hawaiting hstored => exact h.step _ hpage hawaiting
    | accounts req window hmethod horigin hpage hawaiting hstored =>
      intro k hk
      rw [Provider.step, hawaiting] at hk
      rw [Provider.step, hpage]
      rcases List.mem_append.mp hk with hk | hk
      · obtain ⟨p, hp, hm, ho⟩ := h k hk
        refine ⟨_, step_getElem? hp _, ?_, ?_⟩
        · rw [react_req]
          exact hm
        · rw [react_req]
          exact ho
      · obtain rfl := List.mem_singleton.mp hk
        exact ⟨_, length_step_opened s.page req window, hmethod, horigin⟩
  | page e =>
    obtain ⟨hpage, hawaiting, -, -⟩ := @foldl_keepAccounts reload
      { s with page := Wallet.step walletOrigin s.page e }
      (s.awaiting.filterMap (returnedNow s.page (Wallet.step walletOrigin s.page e)))
    exact h.step e hpage hawaiting
  | disconnect => exact h

/-- **A step changes the accounts kept** only when the wallet grants others, or they are dropped. -/
theorem stored_step (h : AwaitsAccounts loc s) {e : ProviderEvent} {accounts : Value}
    (hstored : (s.step walletOrigin loc reload e).stored = some accounts) :
    (s.stored = some accounts ∧ e ≠ .disconnect) ∨
      ∃ m v, e = .page (.message m) ∧ Grants walletOrigin loc s m v ∧ reload v = some accounts := by
  cases e with
  | call m params id now window =>
    refine Or.inl ⟨?_, by rintro ⟨⟩⟩
    rw [← hstored]
    cases @request_effect walletOrigin loc s m params id now window with
    | quiet _ _ hkept => exact hkept.symm
    | request _ _ _ _ hkept => exact hkept.symm
    | accounts _ _ _ _ _ _ hkept => exact hkept.symm
  | page e =>
    obtain ⟨-, -, -, hfold⟩ := @foldl_keepAccounts reload
      { s with page := Wallet.step walletOrigin s.page e }
      (s.awaiting.filterMap (returnedNow s.page (Wallet.step walletOrigin s.page e)))
    have hlast := hfold.symm.trans hstored
    cases hv : (s.awaiting.filterMap
        (returnedNow s.page (Wallet.step walletOrigin s.page e))).getLast? with
    | none =>
      rw [hv] at hlast
      exact Or.inl ⟨hlast, by rintro ⟨⟩⟩
    | some v =>
      rw [hv] at hlast
      obtain ⟨k, hk, hreturn⟩ := List.mem_filterMap.mp (List.mem_of_getLast? hv)
      obtain ⟨m, rfl, hgrants⟩ := grants_of_returnedNow h hk hreturn
      exact Or.inr ⟨m, v, rfl, hgrants, hlast⟩
  | disconnect => cases hstored

/-- **The accounts kept are the wallet's.**  After any calls, messages of any windows, and
disconnections, the accounts that the provider keeps are what the wallet's window, at the wallet's
origin, gave in answer to a request for accounts of this page, and no disconnection came after. -/
theorem stored_granted {chainId : Text} {events : List ProviderEvent} {accounts : Value}
    (h : (run (Provider.step walletOrigin loc reload) (Provider.initial chainId) events).stored =
      some accounts) :
    ∃ before m v after, events = before ++ .page (.message m) :: after ∧
      Grants walletOrigin loc
        (run (Provider.step walletOrigin loc reload) (Provider.initial chainId) before) m v ∧
      reload v = some accounts ∧ .disconnect ∉ after := by
  have hawaits (events : List ProviderEvent) : AwaitsAccounts loc
      (run (Provider.step walletOrigin loc reload) (Provider.initial chainId) events) := by
    induction events using List.reverseRecOn with
    | nil =>
      intro k hk
      cases hk
    | append_singleton events e ih =>
      rw [run_concat]
      exact awaitsAccounts_step ih e
  induction events using List.reverseRecOn with
  | nil => cases h
  | append_singleton events e ih =>
    rw [run_concat] at h
    rcases stored_step (hawaits events) h with ⟨hkept, hne⟩ | ⟨m, v, rfl, hgrants, hreload⟩
    · obtain ⟨before, m, v, after, rfl, hgrants, hreload, hafter⟩ := ih hkept
      refine ⟨before, m, v, after ++ [e], by simp, hgrants, hreload, ?_⟩
      intro hmem
      rcases List.mem_append.mp hmem with hmem | hmem
      · exact hafter hmem
      · exact hne (List.mem_singleton.mp hmem).symm
    · exact ⟨events, m, v, [], rfl, hgrants, hreload, List.not_mem_nil⟩

end

def connecting : List ProviderEvent :=
  [.call "eth_requestAccounts" [] "c0ffee" 0 (some 3),
    .page (.message ⟨"https://boing.express", 3, .object [("type", .string "boing_web_ready")]⟩),
    .page (.message ⟨"https://boing.express", 3, .object
      [("v", .number (.finite 1)), ("type", .string "boing_web_response"), ("id", .string "c0ffee"),
        ("origin", .string "https://boing.observer"), ("chainId", .string "0x1b01"),
        ("result", .array [.string "0xaa"])]⟩)]

theorem stored_granted_connecting :
    let loc : Location := ⟨"https://boing.observer", "https://boing.observer/qa#top"⟩
    (run (Provider.step "https://boing.express" loc some) (Provider.initial "0x1B01")
      connecting).stored = some (.array [.string "0xaa"]) ∧
    ∃ before m v after, connecting = before ++ .page (.message m) :: after ∧
      Grants "https://boing.express" loc
        (run (Provider.step "https://boing.express" loc some) (Provider.initial "0x1B01") before)
        m v ∧
      some v = some (.array [.string "0xaa"]) ∧ .disconnect ∉ after :=
  ⟨rfl, stored_granted rfl⟩

end BoingObserver.Wallet
