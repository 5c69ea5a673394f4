import BoingObserver.Base64
import BoingObserver.Latest
import BoingObserver.UrlEncoded
import BoingObserver.Wallet.Web
import Mathlib.Data.List.DropRight

/-!
# Requests by redirect

`startBoingWebRedirect` leaves the page for the wallet and keeps what is pending; the wallet comes
back with its response in the fragment of the URL, and `consumeBoingWebRedirectResponse` reads it.
Any link may carry a fragment.

* `responseIn_written`: a response written into a fragment is read.
* `redirect_exact`: exactly which loads of the page give a result, and where the accounts kept
  come from.
-/

namespace BoingObserver.Wallet

open Js
open Overlap (run run_concat)
open Latest (LastWrite lastWrite_of_read read_of_lastWrite)

/-! ## Texts in a URL -/

/-- `+` and `/` are not for URLs. -/
def urlChar (c : Char) : Char := if c = '+' then '-' else if c = '/' then '_' else c

def plainChar (c : Char) : Char := if c = '-' then '+' else if c = '_' then '/' else c

def b64url (s : Text) : Text :=
  ((Base64.btoa (Utf8.encode s)).map urlChar).rdropWhile (· = '=')

/-- The text, or none if `atob` throws. -/
def unb64url (s : Text) : Option Text :=
  (Base64.atob (s.map plainChar ++ List.replicate ((4 - utf16Length s % 4) % 4) '=')).map
    fun bytes => Utf8.decode (Utf8.stripMark bytes)

def urlDigit (d : ℕ) : Char := urlChar (Base64.digitChar d)

theorem urlDigit_plain {d : ℕ} (h : d < 64) :
    plainChar (urlDigit d) = Base64.digitChar d ∧ UrlEncoded.isPlain (urlDigit d).toNat = true ∧
      urlDigit d ≠ '=' := by
  have hall : ∀ d < 64, plainChar (urlDigit d) = Base64.digitChar d ∧
      UrlEncoded.isPlain (urlDigit d).toNat = true ∧ urlDigit d ≠ '=' := by decide +kernel
  exact hall d h

theorem b64url_eq (s : Text) : b64url s = (Base64.sextets (Utf8.encode s)).map urlDigit := by
  have hne : ∀ c ∈ ((Base64.sextets (Utf8.encode s)).map urlDigit).reverse, c ≠ '=' := by
    intro c hc
    obtain ⟨d, hd, rfl⟩ := List.mem_map.mp (List.mem_reverse.mp hc)
    exact (urlDigit_plain (Base64.sextets_lt (Utf8.encode_lt s) d hd)).2.2
  have hpad : ∀ c ∈ List.replicate ((3 - (Utf8.encode s).length % 3) % 3) '=',
      decide (c = '=') = true :=
    fun c hc => decide_eq_true (List.eq_of_mem_replicate hc)
  have hkeep : ((Base64.sextets (Utf8.encode s)).map urlDigit).reverse.dropWhile
      (fun c => decide (c = '=')) = ((Base64.sextets (Utf8.encode s)).map urlDigit).reverse := by
    cases hrev : ((Base64.sextets (Utf8.encode s)).map urlDigit).reverse with
    | nil => rfl
    | cons c cs =>
      rw [hrev] at hne
      rw [List.dropWhile_cons_of_neg (by simp [hne c List.mem_cons_self])]
  rw [b64url, Base64.btoa, List.map_append, List.map_map, List.map_replicate, List.rdropWhile,
    List.reverse_append, List.reverse_replicate]
  refine (congrArg List.reverse (List.dropWhile_append_of_pos hpad)).trans ?_
  refine (congrArg List.reverse hkeep).trans (List.reverse_reverse _)

/-- **A text comes back**, unless it starts with a byte-order mark. -/
theorem unb64url_b64url {s : Text} (h : s.head? ≠ some Utf8.mark) :
    unb64url (b64url s) = some s := by
  have hbytes := Utf8.encode_lt s
  have hdigits := Base64.sextets_lt hbytes
  have hlen : (Base64.sextets (Utf8.encode s)).length % 4 ≠ 1 := by
    rw [Base64.length_sextets_mod]
    omega
  have hplain : (b64url s).map plainChar =
      (Base64.sextets (Utf8.encode s)).map Base64.digitChar := by
    rw [b64url_eq, List.map_map]
    exact List.map_congr_left fun d hd => (urlDigit_plain (hdigits d hd)).1
  have hunits : utf16Length (b64url s) = (Base64.sextets (Utf8.encode s)).length := by
    rw [b64url_eq, utf16Length_eq_length, List.length_map]
    intro c hc
    obtain ⟨d, hd, rfl⟩ := List.mem_map.mp hc
    have hascii := (UrlEncoded.inner_of_isPlain (urlDigit_plain (hdigits d hd)).2.1).ascii
    omega
  rw [unb64url, hplain, hunits, Base64.atob_padded hdigits hlen, Base64.octets_sextets hbytes,
    Option.map_some, Utf8.stripMark_encode h, Utf8.decode_bytes]

/-! ## The fragment -/

def boingWebResponseFragmentKey : Text := "boing_web_response"

/-- The text of the response in `location.hash`; none if it is missing or empty. -/
def responseIn (hash : Text) : Option Text :=
  (UrlEncoded.get (UrlEncoded.parse (if hash.head? = some '#' then hash.tail else hash))
    boingWebResponseFragmentKey).filter (· ≠ [])

theorem lookup_append_of_forall_ne {ps qs : UrlEncoded.Params} {name : Text}
    (h : ∀ p ∈ ps, p.1 ≠ name) : (ps ++ qs).lookup name = qs.lookup name := by
  induction ps with
  | nil => rfl
  | cons p ps ih =>
    obtain ⟨hp, hps⟩ := List.forall_mem_cons.mp h
    rw [List.cons_append, List.lookup_cons, beq_eq_false_iff_ne.mpr (Ne.symm hp)]
    exact ih hps

/-- **A response written into a fragment is read**, among any other parameters, and nothing of it
needs an escape. -/
theorem responseIn_written {s : Text} (hne : s ≠ []) (hmark : s.head? ≠ some Utf8.mark)
    {ps : UrlEncoded.Params} (hps : ∀ p ∈ ps, p.1 ≠ boingWebResponseFragmentKey)
    (qs : UrlEncoded.Params) :
    (responseIn ('#' :: UrlEncoded.serialize
        (ps ++ (boingWebResponseFragmentKey, b64url s) :: qs))).bind unb64url = some s ∧
      UrlEncoded.serialize [(boingWebResponseFragmentKey, b64url s)] =
        boingWebResponseFragmentKey ++ '=' :: b64url s := by
  have hback := unb64url_b64url hmark
  have hraw : b64url s ≠ [] := by
    intro e
    rw [e] at hback
    exact hne (Option.some.inj hback).symm
  have hplain : ∀ c ∈ b64url s, UrlEncoded.isPlain c.toNat = true := by
    intro c hc
    rw [b64url_eq] at hc
    obtain ⟨d, hd, rfl⟩ := List.mem_map.mp hc
    exact (urlDigit_plain (Base64.sextets_lt (Utf8.encode_lt s) d hd)).2.1
  refine ⟨?_, UrlEncoded.serialize_of_isPlain (List.all_eq_true.mp (by decide)) hplain⟩
  rw [responseIn, if_pos (by rfl), List.tail_cons, (UrlEncoded.parse_serialize _).1, UrlEncoded.get,
    lookup_append_of_forall_ne hps, List.lookup_cons_self, Option.filter_some,
    if_pos (decide_eq_true hraw), Option.bind_some, hback]

/-- A response among other parameters. -/
theorem responseIn_written_two :
    (responseIn ('#' :: UrlEncoded.serialize [("tab", "é&="),
      (boingWebResponseFragmentKey, b64url "réponse?")])).bind unb64url = some "réponse?".toList :=
  (responseIn_written (by decide) (by decide)
    (show ∀ p ∈ [(("tab" : Text), ("é&=" : Text))], p.1 ≠ boingWebResponseFragmentKey by decide) []).1

/-! ## Redirects -/

structure PendingRequest where
  id : Text
  origin : Text
  chainId : Text
  method : BoingWebMethod
  expiresAt : ℤ

def PendingRequest.expected (p : PendingRequest) : Expected := ⟨p.id, p.origin, p.chainId⟩

def BoingWebRequest.pending (req : BoingWebRequest) : PendingRequest :=
  ⟨req.id, req.origin, req.chainId, req.method, req.expiresAt⟩

/-- A tab at a page: the fragment of its URL, and what its session's storage holds. -/
structure Tab where
  hash : Text
  pending : Option PendingRequest
  accounts : Option (List Value)

/-- `{ method, result }` or `{ method, error }` -/
structure Consumed where
  method : Text
  outcome : Except WalletError Value

/-- What the platform does with texts: `JSON.parse` and `JSON.stringify`, and what `atob` throws. -/
structure Texts where
  parse : Text → Except WalletError Value
  stringify : BoingWebRequest → Text
  invalidCharacter : WalletError

def noPending : WalletError := .error "No pending Boing Express request (already used or expired)."

section

variable (texts : Texts)

def startBoingWebRedirect (tab : Tab) (req : BoingWebRequest) (walletUrl : Text) : Text × Tab :=
  let base := if walletUrl.getLast? = some '/' then walletUrl.dropLast else walletUrl
  (base ++ "/connect#req=" ++ b64url (texts.stringify req),
    { tab with pending := some req.pending })

def verdictOf (raw : Text) (p : PendingRequest) : Except WalletError Value := do
  let text ← (unb64url raw).elim (.error texts.invalidCharacter) .ok
  let resp ← texts.parse text
  validateBoingWebResponse resp p.expected

def accountsOf (p : PendingRequest) : Except WalletError Value → Option (List Value)
  | .ok v => if p.method = .requestAccounts then v.asArray? else none
  | .error _ => none

/-- Reads the response in the fragment, if there is one: the fragment and the pending request are
gone then. -/
def consumeBoingWebRedirectResponse (tab : Tab) : Option Consumed × Tab :=
  match responseIn tab.hash with
  | none => (none, tab)
  | some raw =>
    let tab' := { tab with hash := [], pending := none }
    match tab.pending with
    | none => (some ⟨[], .error noPending⟩, tab')
    | some p =>
      let verdict := verdictOf texts raw p
      (some ⟨p.method.text, verdict⟩,
        { tab' with accounts := (accountsOf p verdict).orElse fun _ => tab.accounts })

inductive RedirectEvent
  /-- A request is made; the page is left for the wallet. -/
  | start (req : BoingWebRequest) (walletUrl : Text)
  /-- The page is loaded with a fragment, whoever made the link, and reads it. -/
  | load (hash : Text)
  /-- The page reads its fragment once more. -/
  | again
  | disconnect

def Tab.step (tab : Tab) : RedirectEvent → Tab
  | .start req walletUrl => (startBoingWebRedirect texts tab req walletUrl).2
  | .load hash => (consumeBoingWebRedirectResponse texts { tab with hash }).2
  | .again => (consumeBoingWebRedirectResponse texts tab).2
  | .disconnect => { tab with accounts := none }

def Tab.initial : Tab := ⟨[], none, none⟩

def RedirectEvent.decides : RedirectEvent → Bool
  | .start _ _ => true
  | .load hash => (responseIn hash).isSome
  | _ => false

/-- The event starts the request `p`. -/
def RedirectEvent.Starts (p : PendingRequest) (e : RedirectEvent) : Prop :=
  ∃ req walletUrl, e = .start req walletUrl ∧ req.pending = p

variable {texts} {tab : Tab}

/-! ## One event -/

theorem consume_of_none (tab : Tab) (h : responseIn tab.hash = none) :
    consumeBoingWebRedirectResponse texts tab = (none, tab) := by
  rw [consumeBoingWebRedirectResponse, h]

/-- What is pending is used up by the first response, whatever it says. -/
theorem consume_pending (tab : Tab) {raw : Text} (h : responseIn tab.hash = some raw) :
    (consumeBoingWebRedirectResponse texts tab).2.pending = none ∧
      (consumeBoingWebRedirectResponse texts tab).2.hash = [] := by
  rw [consumeBoingWebRedirectResponse, h]
  cases tab.pending with
  | none => exact ⟨rfl, rfl⟩
  | some p => exact ⟨rfl, rfl⟩

theorem consume_of_pending {raw : Text} {p : PendingRequest} (h : responseIn tab.hash = some raw)
    (hp : tab.pending = some p) :
    (consumeBoingWebRedirectResponse texts tab).1 =
      some ⟨p.method.text, verdictOf texts raw p⟩ := by
  rw [consumeBoingWebRedirectResponse, h, hp]

/-- **Which loads give a result**: a request is pending, and the response in the fragment answers
it. -/
theorem consume_eq_ok_iff {method : Text} {v : Value} :
    (consumeBoingWebRedirectResponse texts tab).1 = some ⟨method, .ok v⟩ ↔
      ∃ p raw, tab.pending = some p ∧ responseIn tab.hash = some raw ∧ p.method.text = method ∧
        verdictOf texts raw p = .ok v := by
  constructor
  · intro h
    cases hraw : responseIn tab.hash with
    | none =>
      rw [consume_of_none tab hraw] at h
      cases h
    | some raw =>
      cases hp : tab.pending with
      | none =>
        rw [consumeBoingWebRedirectResponse, hraw, hp] at h
        cases h
      | some p =>
        rw [consume_of_pending hraw hp] at h
        obtain ⟨hmethod, hverdict⟩ := Consumed.mk.inj (Option.some.inj h)
        exact ⟨p, raw, rfl, rfl, hmethod, hverdict⟩
  · rintro ⟨p, raw, hp, hraw, rfl, hverdict⟩
    rw [consume_of_pending hraw hp, hverdict]

/-- **What a verdict is**: the text of a response that answers the request without an error. -/
theorem verdictOf_eq_ok_iff {raw : Text} {p : PendingRequest} {v : Value} :
    verdictOf texts raw p = .ok v ↔
      ∃ text resp, unb64url raw = some text ∧ texts.parse text = .ok resp ∧
        Answers resp p.expected ∧ (resp.get "error").truthy = false ∧ v = resp.get "result" := by
  rw [verdictOf]
  constructor
  · intro h
    cases htext : unb64url raw with
    | none =>
      rw [htext] at h
      cases h
    | some text =>
      rw [htext] at h
      obtain ⟨resp, hresp, hv⟩ := bind_eq_ok (x := texts.parse text) h
      exact ⟨text, resp, rfl, hresp, validateBoingWebResponse_eq_ok_iff.mp hv⟩
  · rintro ⟨text, resp, htext, hresp, hanswers⟩
    rw [htext]
    change (texts.parse text >>= fun resp => validateBoingWebResponse resp p.expected) = .ok v
    rw [hresp]
    exact validateBoingWebResponse_eq_ok_iff.mpr hanswers

/-! ## Runs -/

theorem responseIn_nil : responseIn [] = none := by decide

/-- The page leaves no response in its fragment. -/
theorem responseIn_consume (tab : Tab) :
    responseIn (consumeBoingWebRedirectResponse texts tab).2.hash = none := by
  cases hraw : responseIn tab.hash with
  | none =>
    rw [consume_of_none tab hraw]
    exact hraw
  | some raw =>
    rw [(consume_pending tab hraw).2]
    exact responseIn_nil

theorem responseIn_run (events : List RedirectEvent) :
    responseIn (run (Tab.step texts) .initial events).hash = none := by
  induction events using List.reverseRecOn with
  | nil => exact responseIn_nil
  | append_singleton events e ih =>
    rw [run_concat]
    cases e with
    | start req walletUrl => exact ih
    | load hash => exact responseIn_consume _
    | again => exact responseIn_consume _
    | disconnect => exact ih

theorem step_again (events : List RedirectEvent) :
    (run (Tab.step texts) .initial events).step texts .again =
      run (Tab.step texts) .initial events := by
  rw [Tab.step, consume_of_none _ (responseIn_run events)]

/-- A load without a response changes the URL only. -/
theorem step_load_of_none {hash : Text} (tab : Tab) (h : responseIn hash = none) :
    tab.step texts (.load hash) = { tab with hash } :=
  congrArg Prod.snd (consume_of_none { tab with hash } h)

theorem step_load_pending {hash raw : Text} (tab : Tab) (h : responseIn hash = some raw) :
    (tab.step texts (.load hash)).pending = none :=
  (consume_pending { tab with hash } h).1

/-- **What is pending** is the request started last, unless a response has been read since. -/
theorem pending_iff {events : List RedirectEvent} {p : PendingRequest} :
    (run (Tab.step texts) .initial events).pending = some p ↔
      LastWrite RedirectEvent.decides (fun _ e => e.Starts p) events := by
  constructor
  · refine lastWrite_of_read rfl fun events e h => ?_
    cases e with
    | start req walletUrl => exact .inl ⟨req, walletUrl, rfl, Option.some.inj h⟩
    | load hash =>
      cases hraw : responseIn hash with
      | none =>
        rw [step_load_of_none _ hraw] at h
        exact .inr ⟨h, congrArg Option.isSome hraw⟩
      | some raw =>
        rw [step_load_pending _ hraw] at h
        cases h
    | again =>
      rw [step_again] at h
      exact .inr ⟨h, rfl⟩
    | disconnect => exact .inr ⟨h, rfl⟩
  · refine read_of_lastWrite (fun events e => ?_) fun events e he => ?_
    · rintro ⟨req, walletUrl, rfl, rfl⟩
      rfl
    · cases e with
      | start req walletUrl => cases he
      | load hash =>
        have hraw : responseIn hash = none :=
          Option.not_isSome_iff_eq_none.mp (ne_true_of_eq_false he)
        rw [step_load_of_none _ hraw]
      | again => rw [step_again]
      | disconnect => rfl

/-- The event delivers the accounts: a response with them answers the pending request for them. -/
def Delivers (texts : Texts) (accounts : List Value) (before : List RedirectEvent)
    (e : RedirectEvent) : Prop :=
  ∃ hash, e = .load hash ∧ (consumeBoingWebRedirectResponse texts
    { run (Tab.step texts) .initial before with hash }).1 =
      some ⟨BoingWebMethod.requestAccounts.text, .ok (.array accounts)⟩

def RedirectEvent.disconnects : RedirectEvent → Bool
  | .disconnect => true
  | _ => false

theorem accountsOf_eq_some {p : PendingRequest} {verdict : Except WalletError Value}
    {accounts : List Value} (h : accountsOf p verdict = some accounts) :
    p.method = .requestAccounts ∧ verdict = .ok (.array accounts) := by
  cases verdict with
  | error e => cases h
  | ok v =>
    rw [accountsOf] at h
    split_ifs at h with hmethod
    refine ⟨hmethod, ?_⟩
    cases v with
    | array l => rw [Option.some.inj h]
    | _ => cases h

/-- Reading a response keeps the accounts, or keeps those that it delivers. -/
theorem consume_accounts {accounts : List Value}
    (h : (consumeBoingWebRedirectResponse texts tab).2.accounts = some accounts) :
    (consumeBoingWebRedirectResponse texts tab).1 =
        some ⟨BoingWebMethod.requestAccounts.text, .ok (.array accounts)⟩ ∨
      tab.accounts = some accounts := by
  cases hraw : responseIn tab.hash with
  | none =>
    rw [consume_of_none tab hraw] at h
    exact .inr h
  | some raw =>
    cases hp : tab.pending with
    | none =>
      rw [consumeBoingWebRedirectResponse, hraw, hp] at h
      exact .inr h
    | some p =>
      rw [consumeBoingWebRedirectResponse, hraw, hp] at h
      change (accountsOf p (verdictOf texts raw p)).orElse (fun _ => tab.accounts) =
        some accounts at h
      cases hkept : accountsOf p (verdictOf texts raw p) with
      | none =>
        rw [hkept] at h
        exact .inr h
      | some l =>
        rw [hkept] at h
        obtain rfl : l = accounts := Option.some.inj h
        obtain ⟨hmethod, hverdict⟩ := accountsOf_eq_some hkept
        rw [consume_of_pending hraw hp, hmethod, hverdict]
        exact .inl rfl

/-- **Redirects.**  Whatever links the page is loaded by, a load gives a result exactly when its
fragment holds a response that answers the request started last, without an error, and no other
response has been read since that request; and the accounts that are kept were given so, in answer
to a request for accounts, with no disconnection after. -/
theorem redirect_exact (texts : Texts) (events : List RedirectEvent) :
    (∀ hash method v, (consumeBoingWebRedirectResponse texts
        { run (Tab.step texts) .initial events with hash }).1 = some ⟨method, .ok v⟩ ↔
      ∃ p raw text resp, LastWrite RedirectEvent.decides (fun _ e => e.Starts p) events ∧
        responseIn hash = some raw ∧ unb64url raw = some text ∧ texts.parse text = .ok resp ∧
        Answers resp p.expected ∧ (resp.get "error").truthy = false ∧ v = resp.get "result" ∧
        method = p.method.text) ∧
      ∀ accounts, (run (Tab.step texts) .initial events).accounts = some accounts →
        LastWrite RedirectEvent.disconnects (Delivers texts accounts) events := by
  refine ⟨fun hash method v => ?_, fun accounts => ?_⟩
  · rw [consume_eq_ok_iff]
    constructor
    · rintro ⟨p, raw, hp, hraw, rfl, hverdict⟩
      obtain ⟨text, resp, htext, hresp, hanswers, herror, rfl⟩ := verdictOf_eq_ok_iff.mp hverdict
      exact ⟨p, raw, text, resp, pending_iff.mp hp, hraw, htext, hresp, hanswers, herror, rfl, rfl⟩
    · rintro ⟨p, raw, text, resp, hp, hraw, htext, hresp, hanswers, herror, rfl, rfl⟩
      exact ⟨p, raw, pending_iff.mpr hp, hraw, rfl,
        verdictOf_eq_ok_iff.mpr ⟨text, resp, htext, hresp, hanswers, herror, rfl⟩⟩
  · refine lastWrite_of_read rfl fun events e h => ?_
    cases e with
    | start req walletUrl => exact .inr ⟨h, rfl⟩
    | load hash =>
      rcases consume_accounts h with hdelivers | hkept
      · exact .inl ⟨hash, rfl, hdelivers⟩
      · exact .inr ⟨hkept, rfl⟩
    | again =>
      rw [step_again] at h
      exact .inr ⟨h, rfl⟩
    | disconnect => cases h

end

end BoingObserver.Wallet
