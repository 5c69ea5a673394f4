import BoingObserver.Context.Query
import BoingObserver.Latest
import BoingObserver.Payload.Kind
import BoingObserver.SharedLoads

/-!
# Descriptions of calls

`use-tx-description.ts` with `fetchTxContext` of `tx-context-client.ts`: every row of a page loads
the context of its contract call, rows that ask the same share a request, and a row may be given
another transaction, or leave, while its request is on the way.

* `inv_run`: a row waits for the question of its call.
* `ran_of_effectsRan`: once its effects have run, a row's load is for the call it was given last.
* `description_exact`: what a row shows is what the handler answered to the question of the call its
  effects ran with, and a question is asked again only fifteen seconds after it failed.
-/

namespace BoingObserver.View

open Js Rpc NativeUnit Context Payload
open Contract (IsWord referencedIds isWord_of_calldataWords)
open Overlap (run AllAllowed run_invariant)
open Latest (LastWrite)

/-! ## A call -/

/-- The dependencies of the effect. -/
structure Deps where
  network : NetworkId
  contract : Text
  calldata : Text
  isWord : contract ≠ [] → IsWord contract

instance : DecidableEq Deps := fun d d' =>
  decidable_of_iff (d.network = d'.network ∧ d.contract = d'.contract ∧ d.calldata = d'.calldata) <| by
    constructor
    · rintro ⟨hn, hc, hd⟩
      cases d
      cases d'
      obtain rfl : _ = _ := hn
      obtain rfl : _ = _ := hc
      obtain rfl : _ = _ := hd
      rfl
    · rintro rfl
      exact ⟨rfl, rfl, rfl⟩

/-- What the effect of a row with a transaction depends on; nothing when a conversion throws. -/
def depsOf (nt : NumberText) (network : NetworkId) (payload : Value) : Option Deps :=
  let isCall := decide (getTxPayloadKind payload = .known .contractCall)
  let contract := (getTxPayloadInner payload).get "contract"
  if isCall && !nt.converts contract then none
  else some
    { network := network
      contract := if isCall then normalizeHex64 (hexForLink nt contract) else []
      calldata := (((getTxPayloadInner payload).get "calldata").asString?).getD []
      isWord h := by
        split_ifs at h ⊢ with hkind
        · exact isHex_normalizeHex64 h
        · exact absurd rfl h }

theorem isWord_referencedIds (calldata : Value) (accessList : List Text) :
    ∀ id ∈ referencedIds calldata accessList, IsWord id := by
  intro id hid
  rw [referencedIds, List.mem_eraseDups, List.mem_append] at hid
  rcases hid with hid | hid
  · have hmem := List.mem_of_mem_filter hid
    cases hwords : Contract.calldataWords calldata with
    | none =>
      rw [hwords] at hmem
      cases hmem
    | some words =>
      rw [hwords] at hmem
      exact isWord_of_calldataWords hwords id hmem
  · exact of_decide_eq_true (List.mem_filter.mp hid).2

def Deps.question (d : Deps) : Option Question :=
  if h : d.contract ≠ [] ∧ d.calldata ≠ [] then
    some (.of d.network (d.isWord h.1) (isWord_referencedIds (.string d.calldata) []))
  else none

/-! ## A page -/

/-- The rows of a page: what they were rendered with, what their effects ran with, and what they
load. -/
structure Page (γ : Type) where
  rendered : ℕ → Option Deps
  ran : ℕ → Option Deps
  loads : SharedLoads.State Question γ

inductive PageEvent (γ : Type)
  /-- A row is added, or is given a transaction or another network. -/
  | render (r : ℕ) (network : NetworkId) (payload : Value)
  /-- The effects of a row run. -/
  | effects (r : ℕ)
  /-- A row leaves. -/
  | unmount (r : ℕ)
  /-- The promise of a request settles; nothing for a failure. -/
  | settle (id : ℕ) (a : Option γ)
  /-- The promise calls back. -/
  | deliver (i : ℕ)
  /-- `setTimeout` calls back. -/
  | fire (id : ℕ)
  | tick (now : ℤ)

variable {γ : Type} (nt : NumberText)

/-- "retry later, not in a tight loop" -/
def retryMs : ℤ := 15000

def Page.initial (now : ℤ) : Page γ := ⟨fun _ => none, fun _ => none, .initial now⟩

def Page.load (p : Page γ) (e : SharedLoads.Event Question γ) : Page γ :=
  { p with loads := SharedLoads.step retryMs p.loads e }

def Page.effects (p : Page γ) (r : ℕ) : Page γ :=
  match p.rendered r with
  | none => p
  | some d =>
    if p.ran r = some d then p
    else { p with ran := Function.update p.ran r (some d) }.load (.watch r d.question)

def Page.unmount (p : Page γ) (r : ℕ) : Page γ :=
  { p with rendered := Function.update p.rendered r none, ran := Function.update p.ran r none }.load
    (.watch r none)

/-- A render that throws takes its row away. -/
def Page.step (p : Page γ) : PageEvent γ → Page γ
  | .render r network payload =>
    match depsOf nt network payload with
    | some d => { p with rendered := Function.update p.rendered r (some d) }
    | none => p.unmount r
  | .effects r => p.effects r
  | .unmount r => p.unmount r
  | .settle id a => p.load (.settle id a)
  | .deliver i => p.load (.deliver i)
  | .fire id => p.load (.fire id)
  | .tick now => p.load (.tick now)

def PageEvent.renders (r : ℕ) : PageEvent γ → Bool
  | .render r' _ _ => r' = r
  | .unmount r' => r' = r
  | _ => false

/-- The row's effects have run, and it was not rendered since. -/
def EffectsRan (r : ℕ) (events : List (PageEvent γ)) : Prop :=
  LastWrite (PageEvent.renders r) (fun _ e => e = .effects r) events

/-! ## What rows wait for -/

/-- A row waits for the question its effect ran with. -/
structure Inv (p : Page γ) : Prop where
  good : SharedLoads.Good retryMs p.loads
  key : ∀ r, (p.loads.views r).key = (p.ran r).bind Deps.question
  /-- No effect outlives its row. -/
  gone : ∀ r, p.rendered r = none → p.ran r = none

theorem Inv.load {p : Page γ} (h : Inv p) {e : SharedLoads.Event Question γ}
    (he : ∀ r q, e ≠ .watch r q) : Inv (p.load e) where
  good := SharedLoads.good_step h.good e
  key r := by
    have hkey := @SharedLoads.key_step _ _ _ retryMs p.loads e r
    cases e with
    | watch r q => exact absurd rfl (he r q)
    | _ => exact hkey.trans (h.key r)
  gone := h.gone

theorem Inv.watch {p : Page γ} (h : Inv p) (r : ℕ) (d : Option Deps) {rendered : ℕ → Option Deps}
    (hr : rendered r = none → d = none) (hrest : ∀ r' ≠ r, rendered r' = p.rendered r') :
    Inv (Page.load ⟨rendered, Function.update p.ran r d, p.loads⟩ (.watch r (d.bind Deps.question))) where
  good := SharedLoads.good_step h.good (.watch r (d.bind Deps.question))
  key r' := by
    refine (@SharedLoads.key_step _ _ _ retryMs p.loads _ r').trans ?_
    change (if r' = r then _ else _) = (Function.update p.ran r d r').bind Deps.question
    rw [Function.update_apply]
    split
    · rfl
    · exact h.key r'
  gone r' hgone := by
    change Function.update p.ran r d r' = none
    rw [Function.update_apply]
    split
    next heq => exact hr (heq ▸ hgone)
    next hne => exact h.gone r' ((hrest r' hne).symm.trans hgone)

theorem Inv.unmount {p : Page γ} (h : Inv p) (r : ℕ) : Inv (p.unmount r) :=
  h.watch r none (fun _ => rfl) fun _ hne => Function.update_of_ne hne _ _

theorem Inv.render {p : Page γ} (h : Inv p) (r : ℕ) (d : Deps) :
    Inv { p with rendered := Function.update p.rendered r (some d) } where
  good := h.good
  key := h.key
  gone r' hgone := by
    by_cases hr : r' = r
    · subst hr
      cases (Function.update_self _ _ _).symm.trans hgone
    · exact h.gone r' ((Function.update_of_ne hr _ _).symm.trans hgone)

theorem inv_step {p : Page γ} (h : Inv p) (e : PageEvent γ) : Inv (p.step nt e) := by
  cases e with
  | render r network payload =>
    rw [Page.step]
    cases depsOf nt network payload with
    | some d => exact h.render r d
    | none => exact h.unmount r
  | effects r =>
    rw [Page.step, Page.effects]
    cases hrendered : p.rendered r with
    | none => exact h
    | some d =>
      dsimp only
      split
      · exact h
      · exact h.watch r (some d) (fun hnone => nomatch hrendered.symm.trans hnone) fun _ _ => rfl
  | unmount r => exact h.unmount r
  | settle id a => exact h.load fun _ _ => by simp
  | deliver i => exact h.load fun _ _ => by simp
  | fire id => exact h.load fun _ _ => by simp
  | tick now => exact h.load fun _ _ => by simp

/-- **A row waits for the question of its call**, in every run. -/
theorem inv_run (now : ℤ) (events : List (PageEvent γ)) :
    Inv (run (Page.step nt) (Page.initial now) events) := by
  have hall : AllAllowed (Page.step nt) (fun _ _ => True) (Page.initial now) events :=
    fun _ _ _ => trivial
  refine run_invariant (P := Inv) ?_ (fun _ e h _ => inv_step nt h e) hall
  exact ⟨SharedLoads.good_initial retryMs now, fun _ => rfl, fun _ _ => rfl⟩

/-! ## Whose effects have run -/

/-- Only the effects of a row make it go on to what it was rendered with. -/
theorem ran_step {p : Page γ} {r : ℕ} (h : p.ran r = p.rendered r) {e : PageEvent γ}
    (he : e.renders r = false) : (p.step nt e).ran r = (p.step nt e).rendered r := by
  cases e with
  | render r' network payload =>
    have hne : r ≠ r' := fun hr => of_decide_eq_false he hr.symm
    rw [Page.step]
    cases depsOf nt network payload with
    | some d =>
      change p.ran r = Function.update p.rendered r' (some d) r
      rwa [Function.update_of_ne hne]
    | none =>
      change Function.update p.ran r' none r = Function.update p.rendered r' none r
      rwa [Function.update_of_ne hne, Function.update_of_ne hne]
  | effects r' =>
    rw [Page.step, Page.effects]
    cases hrendered : p.rendered r' with
    | none => exact h
    | some d =>
      dsimp only
      split
      · exact h
      · change Function.update p.ran r' (some d) r = p.rendered r
        rw [Function.update_apply]
        split
        next hr => exact (hr ▸ hrendered).symm
        next => exact h
  | unmount r' =>
    have hne : r ≠ r' := fun hr => of_decide_eq_false he hr.symm
    change Function.update p.ran r' none r = Function.update p.rendered r' none r
    rwa [Function.update_of_ne hne, Function.update_of_ne hne]
  | settle id a => exact h
  | deliver i => exact h
  | fire id => exact h
  | tick now => exact h

theorem ran_effects {p : Page γ} {r : ℕ} (h : p.rendered r = none → p.ran r = none) :
    (p.effects r).ran r = (p.effects r).rendered r := by
  rw [Page.effects]
  cases hrendered : p.rendered r with
  | none => exact (h hrendered).trans hrendered.symm
  | some d =>
    dsimp only
    split
    next hran => exact hran.trans hrendered.symm
    next =>
      change Function.update p.ran r (some d) r = p.rendered r
      rw [Function.update_self, hrendered]

/-- **Once its effects have run**, a row's load is for the call it was rendered with. -/
theorem ran_of_effectsRan {now : ℤ} {events : List (PageEvent γ)} {r : ℕ} (h : EffectsRan r events) :
    (run (Page.step nt) (Page.initial now) events).ran r =
      (run (Page.step nt) (Page.initial now) events).rendered r := by
  refine h.holds (Q := fun p : Page γ => p.ran r = p.rendered r) (fun events e he => ?_)
    fun events e he hran => ran_step nt hran he
  obtain rfl : e = .effects r := he
  exact ran_effects ((inv_run nt now events).gone r)

/-- **Descriptions are of their own calls.**  However rows come, change and leave, and whenever
requests settle: what a row shows is the answer to a request that the handler reads as the network,
the contract and the ids, the first 24 in order, of the call the row's effects ran with last.  That is
the call it was rendered with, once they have run since.  Rows share requests: of two requests with one
key, the first has failed, and fifteen seconds went by before the second. -/
theorem description_exact (env : RpcEnv) (now : ℤ) (events : List (PageEvent γ)) :
    let p := run (Page.step nt) (Page.initial now) events
    (∀ r a, (p.loads.views r).shown = some a →
      ∃ d id req t, p.ran r = some d ∧ p.loads.requests id = some req ∧ d.question = some req.key ∧
        req.outcome = some (t, some a) ∧
        ((d.network = .mainnet → isMainnetConfigured env = true) →
          readQuery env req.key.search = .ok ⟨d.network, d.contract,
            (sortedIds (referencedIds (.string d.calldata) [])).take maxIds⟩)) ∧
    (∀ r, EffectsRan r events → p.ran r = p.rendered r) ∧
    ∀ i j req req', p.loads.requests i = some req → p.loads.requests j = some req' → i < j →
      req.key.cacheKey = req'.key.cacheKey →
        ∃ t, req.outcome = some (t, none) ∧ t + 15000 ≤ req'.startedAt := by
  intro p
  have hinv : Inv p := inv_run nt now events
  refine ⟨fun r a hshown => ?_, fun r h => ran_of_effectsRan nt h,
    fun i j req req' hi hj hij hkey => ?_⟩
  · obtain ⟨id, req, t, hreq, hkey, hout⟩ := hinv.good.shown r a hshown
    rw [hinv.key r] at hkey
    obtain ⟨d, hran, hquestion⟩ := Option.bind_eq_some_iff.mp hkey
    refine ⟨d, id, req, t, hran, hreq, hquestion, hout, fun hconfigured => ?_⟩
    rw [Deps.question] at hquestion
    split_ifs at hquestion with hcall
    rw [← Option.some.inj hquestion]
    exact readQuery_search env _ hconfigured
  · exact hinv.good.again i j req req' hi hj hij (cacheKey_inj hkey)

end BoingObserver.View
