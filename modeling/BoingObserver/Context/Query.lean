import BoingObserver.Contract.Decode
import BoingObserver.Http
import BoingObserver.Rpc.Client
import BoingObserver.Rpc.Hex
import BoingObserver.UrlEncoded
import Mathlib.Data.List.Dedup

/-!
# Asking for the context of a call

`tx-context-client.ts` asks `app/api/tx/context/route.ts` for what a contract call mentions, by a
URL that is also what requests are told apart by.

* `cacheKey_inj`: questions with one key are one question.
* `readQuery_search`: the handler reads the question that was asked.
-/

namespace BoingObserver.Context

open Js Http Rpc NativeUnit
open Contract (IsWord)

/-! ## The client -/

/-- What is asked: the contract, and the ids it is called with, in order and each once. -/
structure Question where
  network : NetworkId
  contract : Text
  ids : List Text
  contract_isWord : IsWord contract
  ids_isWord : ∀ id ∈ ids, IsWord id
  nodup : ids.Nodup

/-- `Array.from(new Set(ids)).sort()` -/
def sortedIds (ids : List Text) : List Text := ids.dedup.mergeSort textLe

/-- The question of a call of `fetchTxContext`. -/
def Question.of (network : NetworkId) {contract : Text} (hcontract : IsWord contract)
    {ids : List Text} (hids : ∀ id ∈ ids, IsWord id) : Question where
  network := network
  contract := contract
  ids := sortedIds ids
  contract_isWord := hcontract
  ids_isWord id hid := hids id (List.mem_dedup.mp (List.mem_mergeSort.mp hid))
  nodup := ((List.mergeSort_perm ids.dedup textLe).nodup_iff).mpr ids.nodup_dedup

def joinIds (ids : List Text) : Text := List.intercalate [','] ids

def Question.cacheKey (q : Question) : Text :=
  q.network.text ++ ':' :: (q.contract ++ ':' :: joinIds q.ids)

def Question.search (q : Question) : Text :=
  '?' :: UrlEncoded.serialize
    [("network", q.network.text), ("contract", q.contract), ("ids", joinIds q.ids)]

/-! ## The handler -/

def maxIds : ℕ := 24

/-- `normalizeHex64(v.trim())` -/
def h64 (v : Text) : Text := normalizeHex64 (trim v)

structure ContextQuery where
  network : NetworkId
  contract : Text
  ids : List Text

/-- The part of `GET` that reads the request. -/
def readQuery (env : RpcEnv) (search : Text) : Except Refusal ContextQuery := do
  let params := UrlEncoded.parse search
  let network ← orRefuse (networkOf (UrlEncoded.get params "network"))
    (errorJson 400 "Invalid or missing network")
  refuseIf (network = .mainnet && !isMainnetConfigured env)
    (errorJson 400 "Mainnet RPC is not configured.")
  let contractParam := (UrlEncoded.get params "contract").getD []
  let contract := if contractParam ≠ [] then h64 contractParam else []
  refuseIf (contractParam ≠ [] && contract = [])
    (errorJson 400 "Invalid contract (expect 32-byte hex)")
  let ids := ((((UrlEncoded.get params "ids").getD []).splitOn ',').map h64).foldl addNew []
  .ok ⟨network, contract, ids.take maxIds⟩

/-! ## Words -/

theorem h64_of_isWord {w : Text} (h : IsWord w) : h64 w = w := by
  have hany : isAnyWord w = true := by
    rw [isAnyWord, Bool.and_eq_true, decide_eq_true_eq, List.all_eq_true]
    refine ⟨h.1, fun c hc => ?_⟩
    rw [isAnyHexDigit, h.2 c hc, Bool.true_or]
  rw [h64, h.2.trim_eq, normalizeHex64_of_isAnyWord hany, h.2.toLowerCase_eq]

theorem not_mem_of_isWord {w : Text} (h : IsWord w) {c : Char} (hc : isHexDigit c = false) : c ∉ w :=
  fun hmem => ne_true_of_eq_false hc (h.2 c hmem)

theorem ne_nil_of_isWord {w : Text} (h : IsWord w) : w ≠ [] := by
  rintro rfl
  exact absurd h.1 (by decide)

theorem splitOn_joinIds {ids : List Text} (h : ∀ id ∈ ids, IsWord id) :
    (joinIds ids).splitOn ',' = if ids = [] then [[]] else ids := by
  split
  next hnil =>
    subst hnil
    rfl
  next hne =>
    exact List.splitOn_intercalate ',' (fun id hid => not_mem_of_isWord (h id hid) (by decide)) hne

theorem joinIds_inj {ids ids' : List Text} (h : ∀ id ∈ ids, IsWord id) (h' : ∀ id ∈ ids', IsWord id)
    (heq : joinIds ids = joinIds ids') : ids = ids' := by
  have hsplit := congrArg (List.splitOn ',') heq
  rw [splitOn_joinIds h, splitOn_joinIds h'] at hsplit
  have hword : ∀ {ids : List Text}, (∀ id ∈ ids, IsWord id) → ids ≠ [[]] := by
    rintro ids hids rfl
    exact ne_nil_of_isWord (hids [] List.mem_cons_self) rfl
  split_ifs at hsplit with hnil hnil' hnil'
  · rw [hnil, hnil']
  · exact absurd hsplit.symm (hword h')
  · exact absurd hsplit (hword h)
  · exact hsplit

/-- **Questions with one key are one question.** -/
theorem cacheKey_inj {q q' : Question} (h : q.cacheKey = q'.cacheKey) : q = q' := by
  have hlen : ∀ n : NetworkId, n.text.length = 7 := by
    intro n
    cases n <;> rfl
  have hname : ∀ n n' : NetworkId, n.text = n'.text → n = n' := by
    intro n n'
    cases n <;> cases n' <;> decide
  rw [Question.cacheKey, Question.cacheKey] at h
  obtain ⟨hnetwork, h⟩ := List.append_inj h (by rw [hlen, hlen])
  obtain ⟨hcontract, h⟩ := List.append_inj (List.cons.inj h).2
    (by rw [q.contract_isWord.1, q'.contract_isWord.1])
  have hids := joinIds_inj q.ids_isWord q'.ids_isWord (List.cons.inj h).2
  cases q
  cases q'
  obtain rfl := hname _ _ hnetwork
  subst hcontract
  subst hids
  rfl

/-- The table compares keys. -/
instance : DecidableEq Question := fun _ _ => decidable_of_iff _ ⟨cacheKey_inj, congrArg Question.cacheKey⟩

/-! ## The question that is read -/

theorem foldl_addNew_eq {ids out : List Text} (hne : ∀ id ∈ ids, id ≠ []) (h : (out ++ ids).Nodup) :
    ids.foldl addNew out = out ++ ids := by
  induction ids generalizing out with
  | nil => rw [List.foldl_nil, List.append_nil]
  | cons id ids ih =>
    obtain ⟨hid, hids⟩ := List.forall_mem_cons.mp hne
    have hnew : id ∉ out := by
      intro hmem
      exact (List.nodup_append.mp h).2.2 id hmem id List.mem_cons_self rfl
    have hadd : addNew out id = out ++ [id] := if_neg (not_or.mpr ⟨hid, hnew⟩)
    have hassoc : out ++ id :: ids = out ++ [id] ++ ids := by
      rw [List.append_assoc]
      rfl
    rw [List.foldl_cons, hadd, ih hids (hassoc ▸ h), hassoc]

/-- **The handler reads the question that was asked**, up to the ids that are too many. -/
theorem readQuery_search (env : RpcEnv) (q : Question)
    (h : q.network = .mainnet → isMainnetConfigured env = true) :
    readQuery env q.search = .ok ⟨q.network, q.contract, q.ids.take maxIds⟩ := by
  have hparse : UrlEncoded.parse q.search = ([("network", q.network.text),
      ("contract", q.contract), ("ids", joinIds q.ids)] : UrlEncoded.Params) :=
    (UrlEncoded.parse_serialize _).2
  have hnetwork : networkOf (some q.network.text) = some q.network := by
    cases q.network <;> decide
  have hconfigured : (decide (q.network = .mainnet) && !isMainnetConfigured env) = false := by
    cases hn : q.network with
    | testnet => rfl
    | mainnet =>
      rw [h hn]
      rfl
  have hids : (((joinIds q.ids).splitOn ',').map h64).foldl addNew [] = q.ids := by
    rw [splitOn_joinIds q.ids_isWord]
    split
    next hnil =>
      rw [hnil]
      decide
    next =>
      have hmap : q.ids.map h64 = q.ids :=
        (List.map_congr_left fun id hid => h64_of_isWord (q.ids_isWord id hid)).trans (List.map_id _)
      rw [hmap]
      exact foldl_addNew_eq (fun id hid => ne_nil_of_isWord (q.ids_isWord id hid)) q.nodup
  have hcontract := ne_nil_of_isWord q.contract_isWord
  have hvalid : (decide (q.contract ≠ []) && decide (q.contract = [])) = false := by
    rw [decide_eq_false hcontract, Bool.and_false]
  rw [readQuery, hparse]
  dsimp only [UrlEncoded.get]
  rw [show List.lookup _ _ = some q.network.text from rfl,
    show List.lookup _ _ = some q.contract from rfl, show List.lookup _ _ = some (joinIds q.ids) from rfl]
  rw [hnetwork, Option.getD_some, Option.getD_some, hids, if_pos hcontract,
    h64_of_isWord q.contract_isWord]
  simp only [orRefuse, Except.bind, bind, hconfigured, hvalid, refuseIf]
  rfl

end BoingObserver.Context
