import BoingObserver.Contract.TokenAmount
import BoingObserver.Js.Map

/-!
# Looking up token metadata

`fetchTokenMetadata` of `tx-context-rpc.ts`: it asks the node for each id, with the first
one as a probe of whether the node has the method.

* `get_fetchTokenMetadata`: what it returns; nothing at all when the probe fails.
* `fetchTokenMetadata_exact_iff`: when it returns the metadata of all ids, and when the
  order of the ids does not matter.
-/

namespace BoingObserver.Context

open Js Contract
open NativeUnit (NetworkId)

def tokenTtlMs : ℤ := 5 * 60000

/-- The node does not have the method. -/
def unsupportedBackoffMs : ℤ := 10 * 60000

/-- Any other failure: try again soon. -/
def transientBackoffMs : ℤ := 30000

def maxTokenLookups : ℕ := 12

/-! ## State -/

structure CachedToken where
  time : ℤ
  token : Option TokenMeta

/-- What the module keeps between calls, and how often the clock has been read. -/
structure Caches where
  tokens : Map Text CachedToken
  backoffUntil : Map NetworkId ℤ
  reads : ℕ

def Caches.initial : Caches := ⟨Map.empty, Map.empty, 0⟩

def Caches.tick (c : Caches) : Caches := { c with reads := c.reads + 1 }

structure Sorting where
  caches : Caches
  out : Map Text TokenMeta
  todo : List Text

structure Fetch where
  caches : Caches
  out : Map Text TokenMeta

/-- `call(method, params)`: the answer, or what is thrown. -/
abbrev RpcCaller : Type := Text → List Value → Except Value Value

/-- The order in which calls that are in flight at once are answered. -/
structure Schedule where
  order : List Text → List Text
  perm : ∀ ids, (order ids).Perm ids

/-- `HEX64.test(id)` -/
def isHex64 (id : Text) : Bool := id.length = 64 ∧ IsHex id

def cacheKey (network : NetworkId) (id : Text) : Text := network.text ++ ':' :: id

/-- `v === z` -/
def isNumber (v : Value) (z : ℤ) : Bool :=
  match v with
  | .number x => x.toInt? = some z
  | _ => false

def isUnsupported (e : Value) : Bool :=
  isNumber (e.get "code") (-32601) || isNumber (e.get "httpStatus") 403 ||
    isNumber (e.get "httpStatus") 404 || isNumber (e.get "httpStatus") 405 ||
      isNumber (e.get "httpStatus") 501

/-! ## The call -/

section

variable (network : NetworkId) (clock : ℕ → ℤ) (call : RpcCaller)

def addTodo (s : Sorting) (id : Text) : Sorting :=
  if id ∈ s.todo then s else { s with todo := s.todo ++ [id] }

def sortId (s : Sorting) (id : Text) : Sorting :=
  if !isHex64 id || (s.out.get id).isSome then s
  else
    match s.caches.tokens.get (cacheKey network id) with
    | none => addTodo s id
    | some hit =>
      let now := clock s.caches.reads
      let s := { s with caches := s.caches.tick }
      if now - hit.time < tokenTtlMs then
        match hit.token with
        | some token => { s with out := s.out.set id token }
        | none => s
      else addTodo s id

def askNode (id : Text) : Except Value Value :=
  call "boing_getTokenMetadata" [.object [("id", .string ("0x" ++ id))]]

def store (s : Fetch) (id : Text) (token : Option TokenMeta) : Fetch where
  caches :=
    { s.caches.tick with
      tokens := s.caches.tokens.set (cacheKey network id) ⟨clock s.caches.reads, token⟩ }
  out :=
    match token with
    | some token => s.out.set id token
    | none => s.out

def one (s : Fetch) (id : Text) : Except Value Fetch := do
  let r ← askNode call id
  return store network clock s id (tokenMetaFromRpc r)

/-- `one(id).catch(() => {})` -/
def oneCaught (s : Fetch) (id : Text) : Fetch :=
  match one network clock call s id with
  | .ok s => s
  | .error _ => s

def backOff (s : Fetch) (e : Value) : Fetch :=
  { s with
    caches :=
      { s.caches.tick with
        backoffUntil := s.caches.backoffUntil.set network (clock s.caches.reads +
          if isUnsupported e then unsupportedBackoffMs else transientBackoffMs) } }

def fetchTokenMetadata (schedule : Schedule) (caches : Caches) (ids : List Text) : Fetch :=
  let s := ids.foldl (sortId network clock) ⟨caches, Map.empty, []⟩
  match s.todo.take maxTokenLookups with
  | [] => ⟨s.caches, s.out⟩
  | probe :: rest =>
    let now := clock s.caches.reads
    let start : Fetch := ⟨s.caches.tick, s.out⟩
    if now < (s.caches.backoffUntil.get network).getD 0 then start
    else
      match one network clock call start probe with
      | .error e => backOff network clock start e
      | .ok s => (schedule.order rest).foldl (oneCaught network clock call) s

end

/-! ## What each id is worth -/

section

variable (call : RpcCaller)

def Fails (id : Text) : Prop := ∃ e, askNode call id = .error e

def tokenOf (id : Text) : Option TokenMeta :=
  match askNode call id with
  | .ok r => tokenMetaFromRpc r
  | .error _ => none

def lookups (ids : List Text) : List Text := ids.filter isHex64

def ProbeFails (ids : List Text) : Prop := ∃ id, (lookups ids).head? = some id ∧ Fails call id

end

section

variable (network : NetworkId) (clock : ℕ → ℤ) (call : RpcCaller) (schedule : Schedule)
  (caches : Caches) (ids : List Text)

/-- Exactly the metadata of the ids whose own calls give metadata is returned. -/
def Exact : Prop :=
  ∀ id, (fetchTokenMetadata network clock call schedule caches ids).out.get id =
    if id ∈ lookups ids then tokenOf call id else none

/-- The ids may come in any order, and their answers too. -/
def OrderFree : Prop :=
  ∀ ids' schedule', ids'.Perm ids → ∀ id,
    (fetchTokenMetadata network clock call schedule' caches ids').out.get id =
      (fetchTokenMetadata network clock call schedule caches ids).out.get id

end

def Uncached (network : NetworkId) (clock : ℕ → ℤ) (caches : Caches) (id : Text) : Prop :=
  ∀ hit, caches.tokens.get (cacheKey network id) = some hit →
    ∀ k, tokenTtlMs ≤ clock k - hit.time

/-- Nothing of the ids is in the cache any more, and the network is not in back-off. -/
structure Ready (network : NetworkId) (clock : ℕ → ℤ) (caches : Caches) (ids : List Text) :
    Prop where
  uncached : ∀ id ∈ ids, Uncached network clock caches id
  not_backedOff : ∀ k, (caches.backoffUntil.get network).getD 0 ≤ clock k

section

variable {network : NetworkId} {clock : ℕ → ℤ} {call : RpcCaller} {caches : Caches}
  {ids : List Text}

/-! ## Sorting -/

theorem sortId_malformed {id : Text} (h : isHex64 id = false) (s : Sorting) :
    sortId network clock s id = s := by
  rw [sortId, h]
  rfl

theorem sortId_uncached {id : Text} (h : isHex64 id = true) (hid : Uncached network clock caches id)
    {todo : List Text} (hnew : id ∉ todo) :
    ∃ reads, sortId network clock ⟨caches, Map.empty, todo⟩ id =
      ⟨{ caches with reads := reads }, Map.empty, todo ++ [id]⟩ := by
  have hadd (c : Caches) : addTodo ⟨c, Map.empty, todo⟩ id = ⟨c, Map.empty, todo ++ [id]⟩ :=
    if_neg hnew
  rw [sortId, h, Bool.not_true, Bool.false_or, if_neg (by exact Bool.false_ne_true)]
  dsimp only
  cases hhit : caches.tokens.get (cacheKey network id) with
  | none => exact ⟨caches.reads, hadd caches⟩
  | some hit =>
    dsimp only
    rw [if_neg (not_lt.mpr (hid hit hhit caches.reads))]
    exact ⟨caches.reads + 1, hadd caches.tick⟩

/-- **All well-formed ids are looked up** when nothing is cached. -/
theorem foldl_sortId (hnodup : ids.Nodup) {todo : List Text} (hnew : ∀ id ∈ ids, id ∉ todo)
    (huncached : ∀ id ∈ ids, Uncached network clock caches id) :
    ∃ reads, ids.foldl (sortId network clock) ⟨caches, Map.empty, todo⟩ =
      ⟨{ caches with reads := reads }, Map.empty, todo ++ lookups ids⟩ := by
  induction ids generalizing caches todo with
  | nil => exact ⟨caches.reads, by rw [lookups, List.filter_nil, List.append_nil]; rfl⟩
  | cons id ids ih =>
    obtain ⟨hid, hnodup⟩ := List.nodup_cons.mp hnodup
    obtain ⟨hhead, hrest⟩ := List.forall_mem_cons.mp huncached
    obtain ⟨hidnew, hidsnew⟩ := List.forall_mem_cons.mp hnew
    rw [List.foldl_cons, lookups, List.filter_cons, ← lookups]
    cases hhex : isHex64 id with
    | false =>
      rw [sortId_malformed hhex, if_neg Bool.false_ne_true]
      exact ih hnodup hidsnew hrest
    | true =>
      have hafter : ∀ id' ∈ ids, id' ∉ todo ++ [id] := by
        intro id' hmem h
        rcases List.mem_append.mp h with h | h
        · exact hidsnew id' hmem h
        · exact hid (List.mem_singleton.mp h ▸ hmem)
      obtain ⟨reads, hstep⟩ := sortId_uncached hhex hhead hidnew
      have huncached' : ∀ id ∈ ids, Uncached network clock { caches with reads := reads } id := hrest
      obtain ⟨reads', hih⟩ := ih hnodup hafter huncached'
      rw [hstep, if_pos rfl]
      refine ⟨reads', hih.trans ?_⟩
      rw [List.append_assoc]
      rfl

/-! ## Looking up -/

theorem one_eq_error {id : Text} {e : Value} (h : askNode call id = .error e) (s : Fetch) :
    one network clock call s id = .error e := by
  rw [one, h]
  rfl

theorem one_eq_ok {id : Text} (h : ¬ Fails call id) (s : Fetch) :
    one network clock call s id = .ok (oneCaught network clock call s id) := by
  rw [oneCaught, one]
  cases hask : askNode call id with
  | error e => exact absurd ⟨e, hask⟩ h
  | ok r => rfl

/-- **A lookup** gives the metadata of its id, and keeps that of the others. -/
theorem get_oneCaught (s : Fetch) (id id' : Text) :
    (oneCaught network clock call s id).out.get id' =
      if id' = id then (tokenOf call id).or (s.out.get id') else s.out.get id' := by
  rw [oneCaught, one, tokenOf]
  cases askNode call id with
  | error e => exact (ite_self _).symm
  | ok r =>
    change (store network clock s id (tokenMetaFromRpc r)).out.get id' = _
    dsimp only [store]
    cases tokenMetaFromRpc r with
    | none => exact (ite_self _).symm
    | some token => exact Map.get_set s.out id id' token

theorem get_foldl_oneCaught (order : List Text) (s : Fetch) (id : Text) :
    (order.foldl (oneCaught network clock call) s).out.get id =
      if id ∈ order then (tokenOf call id).or (s.out.get id) else s.out.get id := by
  induction order generalizing s with
  | nil => rw [if_neg List.not_mem_nil]; rfl
  | cons a order ih =>
    rw [List.foldl_cons, ih, get_oneCaught]
    by_cases ha : id = a
    · subst ha
      rw [if_pos rfl, if_pos List.mem_cons_self, ← Option.or_assoc, Option.or_self, ite_self]
    · rw [if_neg ha]
      simp only [List.mem_cons, ha, false_or]

/-- **What is returned**: nothing when the probe fails, else what the ids give. -/
theorem get_fetchTokenMetadata (hready : Ready network clock caches ids) (hnodup : ids.Nodup)
    (hlen : ids.length ≤ maxTokenLookups) (schedule : Schedule) (id : Text) :
    (ProbeFails call ids →
      (fetchTokenMetadata network clock call schedule caches ids).out.get id = none) ∧
    (¬ ProbeFails call ids →
      (fetchTokenMetadata network clock call schedule caches ids).out.get id =
        if id ∈ lookups ids then tokenOf call id else none) := by
  obtain ⟨reads, hsort⟩ := foldl_sortId hnodup (fun id _ => List.not_mem_nil) hready.uncached
  have htake : (lookups ids).take maxTokenLookups = lookups ids :=
    List.take_of_length_le (le_trans (List.length_filter_le _ _) hlen)
  have hback : ¬ clock reads < (caches.backoffUntil.get network).getD 0 :=
    not_lt.mpr (hready.not_backedOff reads)
  rw [fetchTokenMetadata, hsort]
  dsimp only
  rw [List.nil_append, htake, ProbeFails]
  cases hlook : lookups ids with
  | nil =>
    refine ⟨fun _ => rfl, fun _ => ?_⟩
    rw [if_neg List.not_mem_nil]
    rfl
  | cons probe rest =>
    dsimp only
    rw [if_neg hback]
    by_cases hfails : Fails call probe
    · obtain ⟨e, he⟩ := hfails
      rw [one_eq_error he]
      exact ⟨fun _ => rfl, fun h => absurd ⟨probe, rfl, e, he⟩ h⟩
    · rw [one_eq_ok hfails]
      refine ⟨fun h => ?_, fun _ => ?_⟩
      · obtain ⟨_, hhead, h⟩ := h
        obtain rfl := Option.some.inj hhead
        exact absurd h hfails
      · refine (get_foldl_oneCaught (probe :: schedule.order rest) _ id).trans ?_
        rw [Map.get_empty, Option.or_none]
        exact if_congr ((schedule.perm rest).cons probe).mem_iff rfl rfl

theorem not_fails_of_tokenOf {id : Text} {token : TokenMeta} (h : tokenOf call id = some token) :
    ¬ Fails call id := by
  rintro ⟨e, he⟩
  rw [tokenOf, he] at h
  cases h

theorem Ready.perm (h : Ready network clock caches ids) {ids' : List Text} (hp : ids'.Perm ids) :
    Ready network clock caches ids' :=
  ⟨fun id hid => h.uncached id (hp.mem_iff.mp hid), h.not_backedOff⟩

theorem exists_perm_probe {id : Text} (h : id ∈ lookups ids) :
    ∃ ids', ids'.Perm ids ∧ (lookups ids').head? = some id := by
  obtain ⟨hmem, hhex⟩ := List.mem_filter.mp h
  refine ⟨id :: ids.erase id, (List.perm_cons_erase hmem).symm, ?_⟩
  rw [lookups, List.filter_cons_of_pos hhex, List.head?_cons]

theorem get_eq_none_of_none (hready : Ready network clock caches ids) (hnodup : ids.Nodup)
    (hlen : ids.length ≤ maxTokenLookups) (hnone : ∀ id ∈ lookups ids, tokenOf call id = none)
    (schedule : Schedule) (id : Text) :
    (fetchTokenMetadata network clock call schedule caches ids).out.get id = none := by
  obtain ⟨hfailed, hasked⟩ :=
    @get_fetchTokenMetadata network clock call caches ids hready hnodup hlen schedule id
  by_cases hprobe : ProbeFails call ids
  · exact hfailed hprobe
  · rw [hasked hprobe]
    split
    next hid => exact hnone id hid
    next => rfl

/-- **The metadata returned is exact** iff the probe does not fail or there is none. -/
theorem exact_iff (hready : Ready network clock caches ids) (hnodup : ids.Nodup)
    (hlen : ids.length ≤ maxTokenLookups) (schedule : Schedule) :
    Exact network clock call schedule caches ids ↔
      ¬ ProbeFails call ids ∨ ∀ id ∈ lookups ids, tokenOf call id = none := by
  have hget (id : Text) :=
    @get_fetchTokenMetadata network clock call caches ids hready hnodup hlen schedule id
  by_cases hprobe : ProbeFails call ids
  · rw [or_iff_right (not_not_intro hprobe)]
    constructor
    · intro h id hid
      have hid' := h id
      rw [(hget id).1 hprobe, if_pos hid] at hid'
      exact hid'.symm
    · intro h id
      rw [(hget id).1 hprobe]
      split
      next hid => exact (h id hid).symm
      next => rfl
  · exact iff_of_true (fun id => (hget id).2 hprobe) (Or.inl hprobe)

/-- **The order does not matter** iff no id fails or there is no metadata. -/
theorem orderFree_iff (hready : Ready network clock caches ids) (hnodup : ids.Nodup)
    (hlen : ids.length ≤ maxTokenLookups) (schedule : Schedule) :
    OrderFree network clock call schedule caches ids ↔
      (∀ id ∈ lookups ids, ¬ Fails call id) ∨ ∀ id ∈ lookups ids, tokenOf call id = none := by
  have hget (ids' : List Text) (hp : ids'.Perm ids) (schedule' : Schedule) (id : Text) :=
    @get_fetchTokenMetadata network clock call caches ids' (hready.perm hp)
      (hp.nodup_iff.mpr hnodup) (hp.length_eq.trans_le hlen) schedule' id
  have hmem (ids' : List Text) (hp : ids'.Perm ids) (id : Text) :
      id ∈ lookups ids' ↔ id ∈ lookups ids := (hp.filter isHex64).mem_iff
  constructor
  · intro h
    by_contra hnot
    simp only [not_or, not_forall, not_not, exists_prop] at hnot
    obtain ⟨⟨bad, hbad, hfails⟩, good, hgood, hsome⟩ := hnot
    obtain ⟨token, htok⟩ := Option.ne_none_iff_exists'.mp hsome
    -- the failing id first loses the metadata, the other one first does not
    obtain ⟨ids₁, hp₁, hhead₁⟩ := exists_perm_probe hbad
    obtain ⟨ids₂, hp₂, hhead₂⟩ := exists_perm_probe hgood
    have hnone := (hget ids₁ hp₁ schedule good).1 ⟨bad, hhead₁, hfails⟩
    have hprobe : ¬ ProbeFails call ids₂ := by
      rintro ⟨id, hhead, hf⟩
      obtain rfl := Option.some.inj (hhead₂.symm.trans hhead)
      exact not_fails_of_tokenOf htok hf
    have hget₂ := (hget ids₂ hp₂ schedule good).2 hprobe
    rw [if_pos ((hmem ids₂ hp₂ good).mpr hgood), h ids₂ schedule hp₂ good,
      ← h ids₁ schedule hp₁ good, hnone, htok] at hget₂
    cases hget₂
  · rintro (hnone | hnone) ids' schedule' hp id
    · have hprobe (ids'' : List Text) (hp'' : ids''.Perm ids) : ¬ ProbeFails call ids'' := by
        rintro ⟨id, hhead, hf⟩
        exact hnone id ((hmem ids'' hp'' id).mp (List.mem_of_mem_head? hhead)) hf
      rw [(hget ids' hp schedule' id).2 (hprobe ids' hp),
        (hget ids (List.Perm.refl ids) schedule id).2 (hprobe ids (List.Perm.refl ids))]
      exact if_congr (hmem ids' hp id) rfl rfl
    · have hnone' : ∀ id ∈ lookups ids', tokenOf call id = none :=
        fun id hid => hnone id ((hmem ids' hp id).mp hid)
      rw [get_eq_none_of_none (hready.perm hp) (hp.nodup_iff.mpr hnodup)
        (hp.length_eq.trans_le hlen) hnone' schedule' id,
        get_eq_none_of_none hready hnodup hlen hnone schedule id]

/-- **A failing id does not lose the others** iff it is not the probe, or there is nothing to lose;
in every order, iff no id fails or there is nothing to lose. -/
theorem fetchTokenMetadata_exact_iff (hready : Ready network clock caches ids)
    (hnodup : ids.Nodup) (hlen : ids.length ≤ maxTokenLookups) (schedule : Schedule) :
    (Exact network clock call schedule caches ids ↔
      ¬ ProbeFails call ids ∨ ∀ id ∈ lookups ids, tokenOf call id = none) ∧
    (OrderFree network clock call schedule caches ids ↔
      (∀ id ∈ lookups ids, ¬ Fails call id) ∨ ∀ id ∈ lookups ids, tokenOf call id = none) :=
  ⟨exact_iff hready hnodup hlen schedule, orderFree_iff hready hnodup hlen schedule⟩

end

/-! ## Two tokens, of which one fails -/

namespace TwoTokens

def idA : Text := List.replicate 64 'a'

def idB : Text := List.replicate 64 'b'

def boom : Value := .object [("message", .string "boom")]

def call : RpcCaller := fun _ params =>
  match params with
  | [p] =>
    if (p.get "id").asString? = some ("0x" ++ idB) then .error boom
    else .ok (.object [("symbol", .string "AAA")])
  | _ => .error boom

def inOrder : Schedule := ⟨id, List.Perm.refl⟩

theorem ready (ids : List Text) : Ready .testnet (fun _ => 0) Caches.initial ids where
  uncached _ _ _ h := by cases h
  not_backedOff _ := le_refl 0

end TwoTokens

open TwoTokens

theorem fetchTokenMetadata_exact_failingFirst :
    (Exact .testnet (fun _ => 0) call inOrder Caches.initial [idB, idA] ↔
      ¬ ProbeFails call [idB, idA] ∨ ∀ id ∈ lookups [idB, idA], tokenOf call id = none) ∧
    (OrderFree .testnet (fun _ => 0) call inOrder Caches.initial [idB, idA] ↔
      (∀ id ∈ lookups [idB, idA], ¬ Fails call id) ∨
        ∀ id ∈ lookups [idB, idA], tokenOf call id = none) :=
  fetchTokenMetadata_exact_iff (ready _) (by decide) (by decide) inOrder

/-- **With the failing id first the other one is lost**; with it second it is not. -/
theorem failingFirst_loses : askNode call idB = .error boom ∧ isUnsupported boom = false ∧
    tokenOf call idA = some ⟨some "AAA", none, none⟩ ∧
    (fetchTokenMetadata .testnet (fun _ => 0) call inOrder Caches.initial [idB, idA]).out.get idA =
      none ∧
    (fetchTokenMetadata .testnet (fun _ => 0) call inOrder Caches.initial [idA, idB]).out.get idA =
      some ⟨some "AAA", none, none⟩ ∧
    ¬ Exact .testnet (fun _ => 0) call inOrder Caches.initial [idB, idA] ∧
    ¬ OrderFree .testnet (fun _ => 0) call inOrder Caches.initial [idB, idA] := by
  refine ⟨rfl, rfl, rfl, rfl, rfl, fun h => ?_, fun h => ?_⟩
  · have hA : none = some (⟨some "AAA", none, none⟩ : TokenMeta) := h idA
    cases hA
  · have hA : some (⟨some "AAA", none, none⟩ : TokenMeta) = none :=
      h [idA, idB] inOrder (List.Perm.swap idB idA []) idA
    cases hA

end BoingObserver.Context
