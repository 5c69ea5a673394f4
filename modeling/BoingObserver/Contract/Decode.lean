import BoingObserver.Contract.Encode

/-!
# Decoding a contract call

`decodeContractCall` of `tx-decode.ts` with the two routers, and `referencedIds`.

The ledger router decodes its forwarded words with `decodeContractCall` again,
as a pool of unknown version.  Only pool families are candidates there, so the
recursion is one level deep: `decodeWith` is the decoder with the router passed
in, `decodePoolCall` has none, and `decodePoolCall_eq` says that it is
`decodeContractCall` on the inputs the router builds.

* `decodeContractCall_cases`: what a decoded call can be (`Decodes`): a table
  function with one argument per parameter, a custody-router swap, or a
  ledger-router call.
-/

namespace BoingObserver.Contract

open Js

/-! ## Decoded calls -/

structure DecodedArg where
  name : Text
  type : AbiParamType
  /-- The raw 32-byte word (64 hex). -/
  word : Text
  /-- Unsigned integer value for numeric params; null for accounts / bytes32. -/
  value : Option ℤ
  /-- 64-hex account for `account` params, else null. -/
  account : Option Text

/-- `Pick<ContractFunction, "selector" | "name">` -/
structure FunctionRef where
  selector : ℕ
  name : Text

structure RouterHop where
  pool : Text
  direction : ℤ
  tokenIn : Text

structure DecodedCall where
  interfaceId : Text
  /-- Contract the call is addressed to (64 hex). -/
  contract : Text
  fn : FunctionRef
  args : List DecodedArg
  /-- Router hops (custody router only). -/
  hops : Option (List RouterHop) := none
  /-- Pool call forwarded by a ledger router: the inner call. -/
  inner : Option DecodedCall := none

def AbiParamType.isNumeric : AbiParamType → Bool
  | .account => false
  | .bytes32 => false
  | _ => true

def argFrom (name : Text) (type : AbiParamType) (word : Text) : DecodedArg where
  name := name
  type := type
  word := word
  value := if type.isNumeric then (wordU128 word).map Int.ofNat else none
  account := if type = .account then some word else none

/-- `params.map((p, i) => argFrom(p.name, p.type, words[i + 1]))` -/
def argsFrom (params : List AbiParam) (words : List Text) : List DecodedArg :=
  List.zipWith (fun p w => argFrom p.name p.type w) params words.tail

/-! ## The decoders -/

def poolFamilies : List Text := ["pool-custody", "pool-ledger"]

/-- The function the words call: same selector, one word per parameter, kind `write`. -/
def calls (words : List Text) (f : ContractFunction) : Bool :=
  selectorOf words = some f.selector ∧ f.params.length + 1 = words.length ∧ f.kind = .write

def decodeWithFunctions (interfaceId contract : Text) (words : List Text)
    (fns : List ContractFunction) : Option DecodedCall :=
  match fns.find? (calls words) with
  | none => none
  | some fn =>
    some { interfaceId, contract, fn := ⟨fn.selector, fn.name⟩, args := argsFrom fn.params words }

/-- Hop `i` of a custody-router call; its direction must be `0` or `1`. -/
def routerHop (words : List Text) (i : ℕ) : Option RouterHop :=
  match wordU128 (words.getD (7 + 3 * i) []) with
  | none => none
  | some dir =>
    if dir ≠ 0 ∧ dir ≠ 1 then none
    else some ⟨words.getD (6 + 3 * i) [], dir, words.getD (8 + 3 * i) []⟩

/-- `custodyRouterInterface.functions[0].params` -/
def custodyRouterParams : List AbiParam :=
  (custodyRouterInterface.functions.headD ⟨0xf1, "swap", [], .write, [], [], none, none⟩).params

/-- `sel | hops | amount_in | min_out | recipient | deadline | (pool, direction, token_in) x hops` -/
def decodeCustodyRouter (contract : Text) (words : List Text) : Option DecodedCall :=
  if selectorOf words ≠ some 0xf1 ∨ words.length < 9 then none
  else
    match wordU128 (words.getD 1 []) with
    | none => none
    | some n =>
      if n < 1 ∨ n > 4 then none
      else if words.length ≠ 6 + 3 * n then none
      else
        match (List.range n).mapM (routerHop words) with
        | none => none
        | some hops =>
          some { interfaceId := "custody-router", contract, fn := ⟨0xf1, "swap"⟩,
                 args := argsFrom custodyRouterParams words, hops := some hops }

/-- One turn of the candidate loop.  An inherited property of the table has no `functions`. -/
def decodeAs (ledgerRouter : Text → List Text → Except JsError (Option DecodedCall))
    (contract : Text) (words : List Text) (id : Text) : Except JsError (Option DecodedCall) :=
  if id = "custody-router" then .ok (decodeCustodyRouter contract words)
  else if id = "ledger-router" then ledgerRouter contract words
  else
    match recordGet contractInterfaces id with
    | .absent => .ok none
    | .inherited => .error .typeError
    | .own iface => .ok (decodeWithFunctions id contract words iface.functions)

/-- The candidate loop: the first candidate that decodes. -/
def tryCandidates (decode : Text → Except JsError (Option DecodedCall)) :
    List Text → Except JsError (Option DecodedCall)
  | [] => .ok none
  | id :: ids => do
    match ← decode id with
    | some d => return some d
    | none => tryCandidates decode ids

structure CallInput where
  contract : Text
  calldata : Value
  interfaceId : Option Text
  isPool : Bool := false

def CallInput.candidates (input : CallInput) : List Text :=
  match input.interfaceId with
  | some (c :: id) => [c :: id]
  | _ => if input.isPool then poolFamilies else []

def decodeWith (ledgerRouter : Text → List Text → Except JsError (Option DecodedCall))
    (input : CallInput) : Except JsError (Option DecodedCall) :=
  match calldataWords input.calldata with
  | none => .ok none
  | some words =>
    let contract := toLowerCase (strip0x input.contract)
    match selectorOf words with
    | none => .ok none
    | some _ => tryCandidates (decodeAs ledgerRouter contract words) input.candidates

def decodePoolCall (input : CallInput) : Except JsError (Option DecodedCall) :=
  decodeWith (fun _ _ => .ok none) input

def forwarded (words : List Text) : CallInput where
  contract := words.getD 1 []
  calldata := .string (words.drop 2).flatten
  interfaceId := none
  isPool := true

/-- `sel | pool | inner pool calldata`: the router forwards the inner call with Caller = router. -/
def decodeLedgerRouter (contract : Text) (words : List Text) :
    Except JsError (Option DecodedCall) :=
  match selectorOf words with
  | none => .ok none
  | some sel =>
    if sel ∉ [0xe0, 0xe1, 0xe2] ∨ words.length < 3 then .ok none
    else do
      match ← decodePoolCall (forwarded words) with
      | none => return none
      | some inner =>
        let name : Text :=
          if sel = 0xe0 then "forward_pool_call"
          else if sel = 0xe1 then "forward_pool_call_v2" else "forward_pool_call_v3"
        return some { interfaceId := "ledger-router", contract, fn := ⟨sel, name⟩,
                      args := [argFrom "pool" .account (words.getD 1 [])], inner := some inner }

/-- Decode calldata addressed to `contract`. -/
def decodeContractCall (input : CallInput) : Except JsError (Option DecodedCall) :=
  decodeWith decodeLedgerRouter input

/-- A value that is not a small integer: `!/^0{32}/.test(w) && !/^0+$/.test(w)`. -/
def isFullWidth (w : Text) : Bool :=
  w.take 32 ≠ List.replicate 32 '0' ∧ w ≠ List.replicate w.length '0'

def listedIds (accessList : List Text) : List Text :=
  (accessList.map fun a => toLowerCase (strip0x a)).filter fun h => IsWord h

/-- 64-hex ids worth labelling for a call: every calldata word that is a full-width value, then the
ids of the access list; each once, in order of first appearance. -/
def referencedIds (calldata : Value) (accessList : List Text) : List Text :=
  (((calldataWords calldata).getD []).filter isFullWidth ++ listedIds accessList).eraseDups

/-! ## The candidate loop -/

@[simp] theorem tryCandidates_nil (decode : Text → Except JsError (Option DecodedCall)) :
    tryCandidates decode [] = .ok none := rfl

theorem tryCandidates_singleton (decode : Text → Except JsError (Option DecodedCall)) (id : Text) :
    tryCandidates decode [id] = decode id := by
  rw [tryCandidates]
  cases h : decode id with
  | error e => rfl
  | ok d => cases d <;> rfl

theorem decodeAs_of_selectorOf_none {id : Text} (hid : id ∉ objectPrototype) (contract : Text)
    {words : List Text} (h : selectorOf words = none) :
    decodeAs decodeLedgerRouter contract words id = .ok none := by
  have hrouter : decodeCustodyRouter contract words = none :=
    if_pos (Or.inl (by simp [h]))
  have htable (iface : ContractInterface) :
      decodeWithFunctions id contract words iface.functions = none := by
    have hfind : iface.functions.find? (calls words) = none :=
      List.find?_eq_none.mpr fun f _ => by simp [calls, h]
    rw [decodeWithFunctions, hfind]
  rw [decodeAs, hrouter, decodeLedgerRouter, h]
  split_ifs
  · rfl
  · rfl
  · rw [recordGet]
    cases contractInterfaces.lookup id with
    | some iface => exact congrArg Except.ok (htable iface)
    | none => rw [if_neg hid]

/-- **Calldata of a declared interface** is decoded by that interface alone. -/
theorem decodeContractCall_declared {id : Text} (hne : id ≠ []) (hid : id ∉ objectPrototype)
    (contract : Text) (calldata : Value) (isPool : Bool) :
    decodeContractCall ⟨contract, calldata, some id, isPool⟩ =
      match calldataWords calldata with
      | none => .ok none
      | some words => decodeAs decodeLedgerRouter (toLowerCase (strip0x contract)) words id := by
  have hcand : CallInput.candidates ⟨contract, calldata, some id, isPool⟩ = [id] := by
    cases id with
    | nil => exact absurd rfl hne
    | cons c id => rfl
  rw [decodeContractCall, decodeWith, hcand]
  cases calldataWords calldata with
  | none => rfl
  | some words =>
    dsimp only
    cases hs : selectorOf words with
    | none => exact (decodeAs_of_selectorOf_none hid _ hs).symm
    | some sel => exact tryCandidates_singleton _ _

theorem tryCandidates_pools (ledgerRouter : Text → List Text → Except JsError (Option DecodedCall))
    (contract : Text) (words : List Text) :
    tryCandidates (decodeAs ledgerRouter contract words) poolFamilies =
      .ok ((decodeWithFunctions "pool-custody" contract words poolCustody).or
        (decodeWithFunctions "pool-ledger" contract words poolLedger)) := by
  have h1 : decodeAs ledgerRouter contract words "pool-custody" =
      .ok (decodeWithFunctions "pool-custody" contract words poolCustody) := rfl
  have h2 : decodeAs ledgerRouter contract words "pool-ledger" =
      .ok (decodeWithFunctions "pool-ledger" contract words poolLedger) := rfl
  rw [poolFamilies, tryCandidates, h1]
  cases decodeWithFunctions "pool-custody" contract words poolCustody with
  | some d => rfl
  | none => exact (tryCandidates_singleton _ _).trans h2

/-- **The router's recursion is `decodeContractCall`** on a pool of unknown version. -/
theorem decodePoolCall_eq {input : CallInput} (hid : input.interfaceId = none)
    (hp : input.isPool = true) : decodePoolCall input = decodeContractCall input := by
  have hc : input.candidates = poolFamilies := by simp [CallInput.candidates, hid, hp]
  simp only [decodePoolCall, decodeContractCall, decodeWith, hc, tryCandidates_pools]

/-! ## What a decoded call can be -/

theorem mem_argsFrom {params : List AbiParam} {words : List Text} {a : DecodedArg}
    (h : a ∈ argsFrom params words) :
    ∃ p ∈ params, ∃ w ∈ words, a = argFrom p.name p.type w := by
  have hmap : a ∈ (params.zip words.tail).map fun x => argFrom x.1.name x.1.type x.2 := by
    rw [List.map_zip_eq_zipWith]
    exact h
  obtain ⟨⟨p, w⟩, hm, rfl⟩ := List.mem_map.mp hmap
  obtain ⟨hp, hw⟩ := List.of_mem_zip hm
  exact ⟨p, hp, w, List.mem_of_mem_tail hw, rfl⟩

theorem words_of_calls {words : List Text} (hw : ∀ w ∈ words, IsWord w) {f : ContractFunction}
    (h : calls words f = true) :
    ∃ ws, words = wordOf f.selector :: ws ∧ ws.length = f.params.length := by
  simp only [calls, decide_eq_true_eq] at h
  obtain ⟨hsel, hlen, -⟩ := h
  cases words with
  | nil => cases hlen
  | cons w ws =>
    rw [eq_wordOf_of_selectorOf (List.forall_mem_cons.mp hw).1 hsel]
    exact ⟨ws, rfl, (Nat.succ.inj hlen).symm⟩

/-- A call to function `f` of a table, with one argument per parameter. -/
def TableCall (id contract : Text) (f : ContractFunction) (words : List Text) : DecodedCall where
  interfaceId := id
  contract := contract
  fn := ⟨f.selector, f.name⟩
  args := argsFrom f.params words

theorem decodeWithFunctions_eq_some {id contract : Text} {words : List Text}
    {fns : List ContractFunction} {call : DecodedCall}
    (h : decodeWithFunctions id contract words fns = some call) :
    ∃ f ∈ fns, calls words f = true ∧ call = TableCall id contract f words := by
  rw [decodeWithFunctions] at h
  cases hf : fns.find? (calls words) with
  | none => rw [hf] at h; cases h
  | some f =>
    rw [hf] at h
    exact ⟨f, List.mem_of_find?_eq_some hf, List.find?_some hf, (Option.some.inj h).symm⟩

theorem decodeWithFunctions_eq_none_iff {id contract : Text} {words : List Text}
    {fns : List ContractFunction} :
    decodeWithFunctions id contract words fns = none ↔ ∀ f ∈ fns, calls words f = false := by
  rw [decodeWithFunctions]
  cases hf : fns.find? (calls words) with
  | none => simpa using hf
  | some f =>
    simp only [reduceCtorEq, false_iff, not_forall]
    exact ⟨f, List.mem_of_find?_eq_some hf, by simp [List.find?_some hf]⟩

theorem decodeCustodyRouter_eq_some {contract : Text} {words : List Text} {call : DecodedCall}
    (h : decodeCustodyRouter contract words = some call) :
    ∃ n hops, wordU128 (words.getD 1 []) = some n ∧ 1 ≤ n ∧ n ≤ 4 ∧ words.length = 6 + 3 * n ∧
      (List.range n).mapM (routerHop words) = some hops ∧
      call = { interfaceId := "custody-router", contract, fn := ⟨0xf1, "swap"⟩,
               args := argsFrom custodyRouterParams words, hops := some hops } := by
  rw [decodeCustodyRouter] at h
  by_cases h0 : selectorOf words ≠ some 0xf1 ∨ words.length < 9
  · rw [if_pos h0] at h
    cases h
  rw [if_neg h0] at h
  cases hn : wordU128 (words.getD 1 []) with
  | none => rw [hn] at h; cases h
  | some n =>
    rw [hn] at h
    dsimp only at h
    by_cases h1 : n < 1 ∨ n > 4
    · rw [if_pos h1] at h
      cases h
    by_cases h2 : words.length ≠ 6 + 3 * n
    · rw [if_neg h1, if_pos h2] at h
      cases h
    rw [if_neg h1, if_neg h2] at h
    cases hm : (List.range n).mapM (routerHop words) with
    | none => rw [hm] at h; cases h
    | some hops =>
      rw [hm] at h
      exact ⟨n, hops, rfl, by omega, by omega, not_not.mp h2, hm, (Option.some.inj h).symm⟩

/-- The calls `decodeContractCall` can return for given words. -/
inductive Decodes (contract : Text) (words : List Text) : DecodedCall → Prop
  | table {id : Text} {iface : ContractInterface} {f : ContractFunction} :
      contractInterfaces.lookup id = some iface → f ∈ iface.functions → calls words f = true →
      Decodes contract words (TableCall id contract f words)
  | custodyRouter {call : DecodedCall} :
      decodeCustodyRouter contract words = some call → Decodes contract words call
  | ledgerRouter {sel : ℕ} {name id : Text} {f : ContractFunction} :
      (id = "pool-custody" ∧ f ∈ poolCustody ∨ id = "pool-ledger" ∧ f ∈ poolLedger) →
      calls (words.drop 2) f = true →
      Decodes contract words
        { interfaceId := "ledger-router", contract, fn := ⟨sel, name⟩,
          args := [argFrom "pool" .account (words.getD 1 [])],
          inner := some (TableCall id (toLowerCase (strip0x (words.getD 1 []))) f (words.drop 2)) }

theorem or_pools_eq_some {contract : Text} {words : List Text} {call : DecodedCall}
    (h : (decodeWithFunctions "pool-custody" contract words poolCustody).or
      (decodeWithFunctions "pool-ledger" contract words poolLedger) = some call) :
    ∃ (id : Text) (f : ContractFunction),
      (id = "pool-custody" ∧ f ∈ poolCustody ∨ id = "pool-ledger" ∧ f ∈ poolLedger) ∧
      calls words f = true ∧ call = TableCall id contract f words := by
  cases hc : decodeWithFunctions "pool-custody" contract words poolCustody with
  | some d =>
    rw [hc, Option.some_or] at h
    cases h
    obtain ⟨f, hf, hcalls, rfl⟩ := decodeWithFunctions_eq_some hc
    exact ⟨_, f, Or.inl ⟨rfl, hf⟩, hcalls, rfl⟩
  | none =>
    rw [hc, Option.none_or] at h
    obtain ⟨f, hf, hcalls, rfl⟩ := decodeWithFunctions_eq_some h
    exact ⟨_, f, Or.inr ⟨rfl, hf⟩, hcalls, rfl⟩

theorem calldataWords_drop {words : List Text} (hw : ∀ w ∈ words, IsWord w) {k : ℕ}
    (hk : k < words.length) :
    calldataWords (.string (words.drop k).flatten) = some (words.drop k) :=
  calldataWords_join (by simpa [List.drop_eq_nil_iff] using hk)
    fun w h => hw w (List.mem_of_mem_drop h)

/-- What the router forwards is a call of one of the two pool families. -/
theorem decodePoolCall_forwarded {words : List Text} (hw : ∀ w ∈ words, IsWord w)
    (hlen : 3 ≤ words.length) :
    decodePoolCall (forwarded words) =
      .ok (match selectorOf (words.drop 2) with
        | none => none
        | some _ =>
          let pool := toLowerCase (strip0x (words.getD 1 []))
          (decodeWithFunctions "pool-custody" pool (words.drop 2) poolCustody).or
            (decodeWithFunctions "pool-ledger" pool (words.drop 2) poolLedger)) := by
  simp only [decodePoolCall, decodeWith, forwarded, calldataWords_drop hw (show 2 < _ by omega)]
  cases selectorOf (words.drop 2) with
  | none => rfl
  | some s =>
    have hc : CallInput.candidates ⟨words.getD 1 [], .string (words.drop 2).flatten, none, true⟩ =
      poolFamilies := rfl
    simp only [hc, tryCandidates_pools]

theorem decodeLedgerRouter_eq_some {contract : Text} {words : List Text}
    (hw : ∀ w ∈ words, IsWord w) {call : DecodedCall}
    (h : decodeLedgerRouter contract words = .ok (some call)) : Decodes contract words call := by
  rw [decodeLedgerRouter] at h
  cases hs : selectorOf words with
  | none => rw [hs] at h; cases h
  | some sel =>
    rw [hs] at h
    dsimp only at h
    by_cases hc : sel ∉ [0xe0, 0xe1, 0xe2] ∨ words.length < 3
    · rw [if_pos hc] at h
      cases h
    rw [if_neg hc, decodePoolCall_forwarded hw (by omega)] at h
    cases hi : selectorOf (words.drop 2) with
    | none => rw [hi] at h; cases h
    | some s =>
      rw [hi] at h
      dsimp only at h
      cases hp : (decodeWithFunctions "pool-custody" (toLowerCase (strip0x (words.getD 1 [])))
          (words.drop 2) poolCustody).or (decodeWithFunctions "pool-ledger"
            (toLowerCase (strip0x (words.getD 1 []))) (words.drop 2) poolLedger) with
      | none => rw [hp] at h; cases h
      | some inner =>
        rw [hp] at h
        obtain ⟨id, f, hid, hcalls, rfl⟩ := or_pools_eq_some hp
        cases h
        exact .ledgerRouter hid hcalls

theorem decodeAs_eq_some {contract : Text} {words : List Text} (hw : ∀ w ∈ words, IsWord w)
    {id : Text} {call : DecodedCall}
    (h : decodeAs decodeLedgerRouter contract words id = .ok (some call)) :
    Decodes contract words call := by
  rw [decodeAs] at h
  split_ifs at h with h1 h2
  · exact .custodyRouter (Except.ok.inj h)
  · exact decodeLedgerRouter_eq_some hw h
  · cases hr : recordGet contractInterfaces id with
    | absent => rw [hr] at h; cases h
    | inherited => rw [hr] at h; cases h
    | own iface =>
      rw [hr] at h
      obtain ⟨f, hf, hcalls, rfl⟩ := decodeWithFunctions_eq_some (Except.ok.inj h)
      exact .table (recordGet_eq_own.mp hr) hf hcalls

/-- **What a decoded call can be.** -/
theorem decodeContractCall_cases {input : CallInput} {call : DecodedCall}
    (h : decodeContractCall input = .ok (some call)) :
    ∃ words, calldataWords input.calldata = some words ∧
      Decodes (toLowerCase (strip0x input.contract)) words call := by
  rw [decodeContractCall, decodeWith] at h
  cases hc : calldataWords input.calldata with
  | none => rw [hc] at h; cases h
  | some words =>
    refine ⟨words, rfl, ?_⟩
    have hw := isWord_of_calldataWords hc
    simp only [hc] at h
    cases hs : selectorOf words with
    | none => rw [hs] at h; cases h
    | some sel =>
      simp only [hs] at h
      have hcand : (∃ id, input.candidates = [id]) ∨ input.candidates = poolFamilies ∨
          input.candidates = [] := by
        rw [CallInput.candidates]
        split
        · exact Or.inl ⟨_, rfl⟩
        · split_ifs <;> simp
      rcases hcand with ⟨id, e⟩ | e | e
      · rw [e, tryCandidates_singleton] at h
        exact decodeAs_eq_some hw h
      · rw [e, tryCandidates_pools] at h
        obtain ⟨id, f, hid, hcalls, rfl⟩ := or_pools_eq_some (Except.ok.inj h)
        rcases hid with ⟨rfl, hf⟩ | ⟨rfl, hf⟩
        · have hid : contractInterfaces.lookup ("pool-custody" : Text) =
              some poolCustodyInterface := rfl
          exact .table hid hf hcalls
        · have hid : contractInterfaces.lookup ("pool-ledger" : Text) =
              some poolLedgerInterface := rfl
          exact .table hid hf hcalls
      · rw [e] at h
        cases h

end BoingObserver.Contract
