import BoingObserver.Overlap
import BoingObserver.Wallet.Web

/-!
# Requests in a popup

`requestViaBoingWebPopup`: the request is handed to a window of the wallet when that window says
it is ready, and the promise settles with the first message of that window that carries the id of
the request, or when the window is closed or the time is up.  Any window may post any message at
any time, and several requests may be open.

* `react_of_open`: what one event does to an open request.
* `run_getElem?`: each request of a page runs by itself.
* `popup_exact`: a request settles once, with its first verdict, and is handed out before only.
-/

namespace BoingObserver.Wallet

open Js
open Overlap (run run_append)

/-- A window, as a page tells it from others. -/
abbrev Win := ℕ

/-- A `MessageEvent`: the browser says which window posted it, and of what origin. -/
structure Message where
  origin : Text
  source : Win
  data : Value

inductive Outcome
  | resolved (v : Value)
  | rejected (e : WalletError)

def Outcome.ofExcept : Except WalletError Value → Outcome
  | .ok v => .resolved v
  | .error e => .rejected e

/-- `popup.postMessage(req, targetOrigin)` -/
structure Posted where
  window : Win
  targetOrigin : Text
  req : BoingWebRequest

structure Popup where
  req : BoingWebRequest
  window : Option Win
  outcome : Option Outcome
  posted : List Posted

inductive Event
  /-- A request is made; there is no window if the browser blocks it. -/
  | opened (req : BoingWebRequest) (window : Option Win)
  | message (m : Message)
  /-- The interval of the request finds its window closed, or not. -/
  | poll (k : ℕ) (closed : Bool)
  | timeout (k : ℕ)

def popupBlocked : Outcome :=
  .rejected (.wallet (.number (.ofNat 4900))
    (.string "Popup blocked. Allow popups for this site, or use redirect mode.")
    (.string "BOING_WEB_POPUP_BLOCKED"))

def windowClosed : Outcome :=
  .rejected (.wallet (.number (.ofNat 4001)) (.string "Boing Express window was closed.")
    (.string "BOING_USER_REJECTED"))

def timedOut : Outcome :=
  .rejected (.wallet (.number (.ofNat 4001)) (.string "Boing Express request timed out.")
    (.string "BOING_WEB_TIMEOUT"))

def Popup.start (req : BoingWebRequest) (window : Option Win) : Popup where
  req
  window
  outcome := if window.isSome then none else some popupBlocked
  posted := []

inductive Reaction
  | ignore
  | post
  | settle (o : Outcome)

def Reaction.verdict : Reaction → Option Outcome
  | .settle o => some o
  | _ => none

def Reaction.posts : Reaction → Bool
  | .post => true
  | _ => false

section

variable (walletOrigin : Text)

/-- The listener of a request with the window `w`. -/
def onMsg (req : BoingWebRequest) (w : Win) (m : Message) : Reaction :=
  if ¬ (m.origin = walletOrigin ∧ m.source = w) then .ignore
  else if isObject m.data = false then .ignore
  else if isText (m.data.get "type") boingWebReadyType then .post
  else if ¬ isText (m.data.get "type") boingWebResponseType then .ignore
  else if ¬ isText (m.data.get "id") req.id then .ignore
  else .settle (.ofExcept (validateBoingWebResponse m.data req.expected))

/-- What an event makes the request with the number `k` and the window `w` do. -/
def reaction (req : BoingWebRequest) (w : Win) (k : ℕ) : Event → Reaction
  | .opened _ _ => .ignore
  | .message m => onMsg walletOrigin req w m
  | .poll j closed => if j = k ∧ closed then .settle windowClosed else .ignore
  | .timeout j => if j = k then .settle timedOut else .ignore

/-- An open request with the window `w` does what an event makes it do. -/
def Popup.apply (p : Popup) (w : Win) : Reaction → Popup
  | .ignore => p
  | .post => { p with posted := p.posted ++ [⟨w, walletOrigin, p.req⟩] }
  | .settle o => { p with outcome := some o }

/-- The request with the number `k` at an event; once settled it listens no more. -/
def Popup.react (k : ℕ) (p : Popup) (e : Event) : Popup :=
  match p.outcome, p.window with
  | none, some w => p.apply walletOrigin w (reaction walletOrigin p.req w k e)
  | _, _ => p

def step (page : List Popup) (e : Event) : List Popup :=
  let page' := page.mapIdx fun k p => p.react walletOrigin k e
  match e with
  | .opened req window => page' ++ [Popup.start req window]
  | _ => page'

/-! ## One event -/

variable {walletOrigin}

/-- **Which messages settle a request**: those of its window, at the wallet's origin, that are
responses with its id. -/
theorem onMsg_verdict_eq_some {req : BoingWebRequest} {w : Win} {m : Message} {o : Outcome}
    (h : (onMsg walletOrigin req w m).verdict = some o) :
    m.origin = walletOrigin ∧ m.source = w ∧ isText (m.data.get "id") req.id ∧
      o = .ofExcept (validateBoingWebResponse m.data req.expected) := by
  rw [onMsg] at h
  split_ifs at h with hsource hobject hready htype hid
  · cases h
  · cases h
  · exact ⟨hsource.1, hsource.2, hid, (Option.some.inj h).symm⟩
  · cases h
  · cases h
  · cases h

/-- The wallet's window `w` says, at the wallet's origin, that it is ready. -/
def saysReady (walletOrigin : Text) (w : Win) : Event → Bool
  | .message m => m.origin = walletOrigin ∧ m.source = w ∧ isObject m.data ≠ false ∧
      isText (m.data.get "type") boingWebReadyType
  | _ => false

/-- **Which events ask for a request**: its window says that it is ready. -/
theorem reaction_posts (req : BoingWebRequest) (w : Win) (k : ℕ) (e : Event) :
    (reaction walletOrigin req w k e).posts = saysReady walletOrigin w e := by
  cases e with
  | opened req' window => rfl
  | message m =>
    rw [reaction, onMsg, saysReady]
    split_ifs with hsource hobject hready htype hid
    · exact (decide_eq_false fun h => h.2.2.1 hobject).symm
    · exact (decide_eq_true ⟨hsource.1, hsource.2, hobject, hready⟩).symm
    · exact (decide_eq_false fun h => hready h.2.2.2).symm
    · exact (decide_eq_false fun h => hready h.2.2.2).symm
    · exact (decide_eq_false fun h => hready h.2.2.2).symm
    · exact (decide_eq_false fun h => hsource ⟨h.1, h.2.1⟩).symm
  | poll j closed =>
    rw [reaction]
    split_ifs <;> rfl
  | timeout j =>
    rw [reaction]
    split_ifs <;> rfl

/-- **A result comes from the wallet**: only a response of the request's window, at the wallet's
origin, that answers the request without an error makes it return. -/
theorem reaction_resolved {req : BoingWebRequest} {w : Win} {k : ℕ} {e : Event} {v : Value}
    (h : (reaction walletOrigin req w k e).verdict = some (.resolved v)) :
    ∃ m, e = .message m ∧ m.origin = walletOrigin ∧ m.source = w ∧ Answers m.data req.expected ∧
      (m.data.get "error").truthy = false ∧ v = m.data.get "result" := by
  cases e with
  | opened req' window => cases h
  | poll j closed =>
    rw [reaction] at h
    split_ifs at h <;> cases h
  | timeout j =>
    rw [reaction] at h
    split_ifs at h <;> cases h
  | message m =>
    obtain ⟨horigin, hsource, -, hout⟩ := onMsg_verdict_eq_some h
    cases hvalid : validateBoingWebResponse m.data req.expected with
    | error e =>
      rw [hvalid] at hout
      cases hout
    | ok v' =>
      rw [hvalid] at hout
      obtain rfl := Outcome.resolved.inj hout
      obtain ⟨hanswers, herror, hresult⟩ := validateBoingWebResponse_eq_ok_iff.mp hvalid
      exact ⟨m, rfl, horigin, hsource, hanswers, herror, hresult⟩

theorem react_of_settled {p : Popup} {o : Outcome} (h : p.outcome = some o) (k : ℕ) (e : Event) :
    p.react walletOrigin k e = p := by
  rw [Popup.react, h]

/-! ## Runs -/

theorem foldl_react_of_settled {p : Popup} {o : Outcome} (h : p.outcome = some o) (k : ℕ)
    (events : List Event) : events.foldl (Popup.react walletOrigin k) p = p := by
  induction events with
  | nil => rfl
  | cons e events ih =>
    rw [List.foldl_cons, react_of_settled h]
    exact ih

def pending (walletOrigin : Text) (req : BoingWebRequest) (w : Win) (k : ℕ)
    (events : List Event) : List Event :=
  events.takeWhile fun e => (reaction walletOrigin req w k e).verdict.isNone

/-- **An open request settles with its first verdict**, and is posted before it only. -/
theorem foldl_react_of_open {p : Popup} {w : Win} (ho : p.outcome = none) (hw : p.window = some w)
    (k : ℕ) (events : List Event) :
    events.foldl (Popup.react walletOrigin k) p =
      { p with
        outcome := events.findSome? fun e => (reaction walletOrigin p.req w k e).verdict
        posted := p.posted ++ ((pending walletOrigin p.req w k events).filter
          (saysReady walletOrigin w)).map fun _ => ⟨w, walletOrigin, p.req⟩ } := by
  induction events generalizing p with
  | nil =>
    obtain ⟨req, window, outcome, posted⟩ := p
    obtain rfl : outcome = none := ho
    simp [pending]
  | cons e events ih =>
    have hreact : p.react walletOrigin k e =
        p.apply walletOrigin w (reaction walletOrigin p.req w k e) := by
      rw [Popup.react, ho, hw]
    have hposts : (reaction walletOrigin p.req w k e).posts = saysReady walletOrigin w e :=
      reaction_posts p.req w k e
    rw [List.foldl_cons, hreact]
    cases hr : reaction walletOrigin p.req w k e with
    | ignore =>
      rw [hr] at hposts
      rw [Popup.apply, ih ho hw]
      simp [pending, hr, Reaction.verdict, ← hposts, Reaction.posts]
    | post =>
      have hnext := ih (p := p.apply walletOrigin w .post) ho hw
      rw [hr] at hposts
      rw [hnext]
      simp [pending, hr, Reaction.verdict, ← hposts, Reaction.posts, Popup.apply]
    | settle o =>
      rw [Popup.apply, foldl_react_of_settled rfl]
      simp [pending, hr, Reaction.verdict]

/-- **Each request of a page runs by itself.** -/
theorem run_getElem? {page : List Popup} {k : ℕ} {p : Popup} (h : page[k]? = some p)
    (events : List Event) :
    (run (step walletOrigin) page events)[k]? =
      some (events.foldl (Popup.react walletOrigin k) p) := by
  induction events generalizing page p with
  | nil => exact h
  | cons e events ih =>
    have hreact : (page.mapIdx fun k p => p.react walletOrigin k e)[k]? =
        some (p.react walletOrigin k e) := by
      rw [List.getElem?_mapIdx, h]
      rfl
    refine ih ?_
    cases e with
    | opened req window =>
      have hlt := (List.getElem?_eq_some_iff.mp hreact).1
      exact (List.getElem?_append_left hlt).trans hreact
    | message m => exact hreact
    | poll j closed => exact hreact
    | timeout j => exact hreact

/-- A request made in the course of a run has the number of the requests before it. -/
theorem run_opened (before after : List Event) (req : BoingWebRequest) (w : Win) :
    (run (step walletOrigin) [] (before ++ .opened req (some w) :: after))[
        (run (step walletOrigin) [] before).length]? =
      some (after.foldl (Popup.react walletOrigin (run (step walletOrigin) [] before).length)
        (Popup.start req (some w))) := by
  have hstart : (step walletOrigin (run (step walletOrigin) [] before) (.opened req (some w)))[
      (run (step walletOrigin) [] before).length]? = some (Popup.start req (some w)) := by
    rw [step, List.getElem?_append_right (by simp)]
    simp
  rw [run_append]
  exact run_getElem? hstart after

/-- **A request in a popup**, among any others and whatever is posted by whom: it settles with the
first event after it that decides it, and never again; if it returns a result, its own window at
the wallet's origin has posted that result, without an error, in a response with the id, origin
and chain of the request; and it is handed to that window at that origin only, whenever the window
says there that it is ready, until it has settled. -/
theorem popup_exact (walletOrigin : Text) (before after : List Event) (req : BoingWebRequest)
    (w : Win) :
    let k := (run (step walletOrigin) [] before).length
    ∃ p : Popup,
      (run (step walletOrigin) [] (before ++ .opened req (some w) :: after))[k]? = some p ∧
      p.outcome = after.findSome? (fun e => (reaction walletOrigin req w k e).verdict) ∧
      (∀ v, p.outcome = some (.resolved v) → ∃ m, .message m ∈ after ∧ m.origin = walletOrigin ∧
        m.source = w ∧ Answers m.data req.expected ∧ (m.data.get "error").truthy = false ∧
        v = m.data.get "result") ∧
      p.posted = ((pending walletOrigin req w k after).filter (saysReady walletOrigin w)).map
        fun _ => ⟨w, walletOrigin, req⟩ := by
  intro k
  have hrun := @foldl_react_of_open walletOrigin (Popup.start req (some w)) w rfl rfl k after
  refine ⟨_, run_opened before after req w, ?_, ?_, ?_⟩
  · rw [hrun]
    rfl
  · intro v hv
    rw [hrun] at hv
    obtain ⟨e, he, hverdict⟩ := List.exists_of_findSome?_eq_some hv
    obtain ⟨m, rfl, hm⟩ := reaction_resolved hverdict
    exact ⟨m, he, hm⟩
  · rw [hrun]
    exact List.nil_append _

end

end BoingObserver.Wallet
