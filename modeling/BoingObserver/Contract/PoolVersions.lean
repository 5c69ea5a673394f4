import BoingObserver.Contract.Describe
import Mathlib.Data.List.Permutation

/-!
# Pool versions

A pool of unknown version is decoded with the tables of both families.

* `shared_functions`: words that both tables accept call one of the functions the
  tables share, which are neither swaps nor liquidity calls.
* `describe_eq_of_families`: a call that both tables accept has the same function,
  arguments and description in both.
* `poolVersions_agree`: so the order in which the families are tried does not
  matter to what is shown.
-/

namespace BoingObserver.Contract

open Js

/-! ## Calls of both families -/

def describedPoolFunctions : List Text :=
  ["swap", "swap_to", "add_liquidity", "remove_liquidity", "remove_liquidity_to"]

/-- **A selector and a number of words in both tables are those of a shared function.** -/
theorem shared_functions : ∀ f ∈ poolCustody, ∀ g ∈ poolLedger, f.selector = g.selector →
    f.params.length = g.params.length →
    f.name = g.name ∧ f.params.map (fun p => (p.name, p.type)) =
      g.params.map (fun p => (p.name, p.type)) ∧ f.name ∉ describedPoolFunctions := by
  decide +kernel

theorem argsFrom_congr {ps qs : List AbiParam}
    (h : ps.map (fun p => (p.name, p.type)) = qs.map (fun p => (p.name, p.type)))
    (words : List Text) : argsFrom ps words = argsFrom qs words := by
  have hmap (ps : List AbiParam) : argsFrom ps words =
      List.zipWith (fun p w => argFrom p.1 p.2 w) (ps.map fun p => (p.name, p.type))
        words.tail := by
    rw [List.zipWith_map_left]
    rfl
  rw [hmap ps, hmap qs, h]

theorem tableCall_agree (contract : Text) {words : List Text} {f g : ContractFunction}
    (hf : f ∈ poolCustody) (hg : g ∈ poolLedger) (hfc : calls words f = true)
    (hgc : calls words g = true) :
    (TableCall "pool-custody" contract f words).fn = (TableCall "pool-ledger" contract g words).fn ∧
    (TableCall "pool-custody" contract f words).args =
      (TableCall "pool-ledger" contract g words).args ∧ f.name ∉ describedPoolFunctions := by
  simp only [calls, decide_eq_true_eq] at hfc hgc
  have hsel : f.selector = g.selector := Option.some.inj (hfc.1.symm.trans hgc.1)
  have hlen : f.params.length = g.params.length :=
    Nat.succ.inj (hfc.2.1.trans hgc.2.1.symm)
  obtain ⟨hname, hparams, hother⟩ := shared_functions f hf g hg hsel hlen
  refine ⟨?_, argsFrom_congr hparams words, hother⟩
  simp only [TableCall, hsel, hname]

/-! ## Descriptions -/

section Describe

variable {call call' : DecodedCall} {fl : FloatText} {sender : Text} {receipt : Option Receipt}
  {ctx : DecodeContext}

/-- Pool calls other than swaps and liquidity calls get the generic description. -/
theorem describe_poolCall (hid : call.interfaceId ∈ poolFamilies) (hinner : call.inner = none)
    (hname : call.fn.name ∉ describedPoolFunctions) :
    describeDecodedCall fl call sender receipt ctx =
      .ok (describeGeneric call sender receipt ctx) := by
  have hself : effective call = call := by
    rw [effective, hinner]
    rfl
  have hids : ∀ id ∈ poolFamilies, id ≠ "custody-router" ∧ id ≠ "lp-vault-v2" ∧
      id ∉ fungibleIfaces := by
    decide
  obtain ⟨hrouter, hvault, hfungible⟩ := hids _ hid
  simp only [describedPoolFunctions, List.mem_cons, List.not_mem_nil, or_false, not_or] at hname
  obtain ⟨h1, h2, h3, h4, h5⟩ := hname
  have hswap : isSwap call = false := by
    rw [isSwap, decide_eq_false h1, decide_eq_false h2]
    exact Bool.and_false _
  have hliquidity : isLiquidity call = false := by
    rw [isLiquidity, decide_eq_false h3, decide_eq_false h4, decide_eq_false h5]
    exact Bool.and_false _
  have hcustody : isCustodyRouter call = false := decide_eq_false hrouter
  rw [describeDecodedCall, hself, hcustody, hswap, hliquidity]
  simp only [Bool.false_eq_true, if_false, describeOther, if_neg hvault, describeFungible,
    if_neg hfungible]

/-- A generic description does not name the interface. -/
theorem describeGeneric_congr (hcontract : call.contract = call'.contract)
    (hfn : call.fn = call'.fn) (hargs : call.args = call'.args) :
    describeGeneric call sender receipt ctx = describeGeneric call' sender receipt ctx := by
  simp only [describeGeneric, hcontract, hfn, hargs]

end Describe

/-- **A call that both tables accept is one call**, whatever family it is decoded for. -/
theorem describe_eq_of_families {contract : Text} {words : List Text} {custody ledger : DecodedCall}
    (hc : decodeWithFunctions "pool-custody" contract words poolCustody = some custody)
    (hl : decodeWithFunctions "pool-ledger" contract words poolLedger = some ledger)
    (fl : FloatText) (sender : Text) (receipt : Option Receipt) (ctx : DecodeContext) :
    custody.fn = ledger.fn ∧ custody.args = ledger.args ∧
      describeDecodedCall fl custody sender receipt ctx =
        describeDecodedCall fl ledger sender receipt ctx := by
  obtain ⟨f, hf, hfc, rfl⟩ := decodeWithFunctions_eq_some hc
  obtain ⟨g, hg, hgc, rfl⟩ := decodeWithFunctions_eq_some hl
  obtain ⟨hfn, hargs, hother⟩ := tableCall_agree contract hf hg hfc hgc
  have hother' : (TableCall "pool-ledger" contract g words).fn.name ∉ describedPoolFunctions :=
    hfn ▸ hother
  refine ⟨hfn, hargs, ?_⟩
  have hgeneric : describeGeneric (TableCall "pool-custody" contract f words) sender receipt ctx =
      describeGeneric (TableCall "pool-ledger" contract g words) sender receipt ctx :=
    describeGeneric_congr rfl hfn hargs
  rw [describe_poolCall List.mem_cons_self rfl hother,
    describe_poolCall (List.mem_cons_of_mem _ List.mem_cons_self) rfl hother', hgeneric]

/-! ## The order of the families -/

/-- A pool call, decoded by trying the families in an order. -/
def decodeTrying (ids : List Text) (contract : Text) (calldata : Value) :
    Except JsError (Option DecodedCall) :=
  match calldataWords calldata with
  | none => .ok none
  | some words =>
    match selectorOf words with
    | none => .ok none
    | some _ =>
      tryCandidates (decodeAs decodeLedgerRouter (toLowerCase (strip0x contract)) words) ids

def describeResult (fl : FloatText) (sender : Text) (receipt : Option Receipt)
    (ctx : DecodeContext) (result : Except JsError (Option DecodedCall)) :
    Except JsError (Option TxDescription) := do
  match ← result with
  | none => return none
  | some call => some <$> describeDecodedCall fl call sender receipt ctx

theorem tryCandidates_pools_reverse (contract : Text) (words : List Text) :
    tryCandidates (decodeAs decodeLedgerRouter contract words) ["pool-ledger", "pool-custody"] =
      .ok ((decodeWithFunctions "pool-ledger" contract words poolLedger).or
        (decodeWithFunctions "pool-custody" contract words poolCustody)) := by
  have h1 : decodeAs decodeLedgerRouter contract words "pool-ledger" =
      .ok (decodeWithFunctions "pool-ledger" contract words poolLedger) := rfl
  have h2 : decodeAs decodeLedgerRouter contract words "pool-custody" =
      .ok (decodeWithFunctions "pool-custody" contract words poolCustody) := rfl
  rw [tryCandidates, h1]
  cases decodeWithFunctions "pool-ledger" contract words poolLedger with
  | some d => rfl
  | none => exact (tryCandidates_singleton _ _).trans h2

theorem describe_decodeTrying {ids : List Text} (hids : ids.Perm poolFamilies) (contract : Text)
    (calldata : Value) (fl : FloatText) (sender : Text) (receipt : Option Receipt)
    (ctx : DecodeContext) :
    describeResult fl sender receipt ctx (decodeTrying ids contract calldata) =
      describeResult fl sender receipt ctx (decodeTrying poolFamilies contract calldata) := by
  rcases List.perm_pair.mp hids with rfl | rfl
  · rfl
  rw [decodeTrying, decodeTrying]
  cases calldataWords calldata with
  | none => rfl
  | some words =>
    dsimp only
    cases selectorOf words with
    | none => rfl
    | some sel =>
      dsimp only
      rw [tryCandidates_pools, tryCandidates_pools_reverse]
      cases hc : decodeWithFunctions "pool-custody" (toLowerCase (strip0x contract)) words
          poolCustody with
      | none => rw [Option.or_none, Option.none_or]
      | some custody =>
        cases hl : decodeWithFunctions "pool-ledger" (toLowerCase (strip0x contract)) words
            poolLedger with
        | none => rfl
        | some ledger =>
          have hsame := (describe_eq_of_families hc hl fl sender receipt ctx).2.2
          rw [Option.some_or, Option.some_or]
          exact congrArg (some <$> ·) hsame.symm

theorem decodeContractCall_pool {id : Text} {iface : ContractInterface}
    (hid : id = "pool-custody" ∧ iface = poolCustodyInterface ∨
      id = "pool-ledger" ∧ iface = poolLedgerInterface)
    {contract : Text} {calldata : Value} {isPool : Bool} {call : DecodedCall}
    (h : decodeContractCall ⟨contract, calldata, some id, isPool⟩ = .ok (some call)) :
    ∃ words, calldataWords calldata = some words ∧
      decodeWithFunctions id (toLowerCase (strip0x contract)) words iface.functions =
        some call := by
  have hown : id ≠ [] ∧ id ∉ objectPrototype := by
    rcases hid with ⟨rfl, -⟩ | ⟨rfl, -⟩
    · exact ⟨by decide, by decide⟩
    · exact ⟨by decide, by decide⟩
  rw [decodeContractCall_declared hown.1 hown.2] at h
  cases hw : calldataWords calldata with
  | none => rw [hw] at h; cases h
  | some words =>
    rw [hw] at h
    refine ⟨words, rfl, ?_⟩
    rcases hid with ⟨rfl, rfl⟩ | ⟨rfl, rfl⟩
    · exact Except.ok.inj h
    · exact Except.ok.inj h

/-- **The pool version never changes the meaning of a call**, and the order in which the families
are tried never changes what is shown. -/
theorem poolVersions_agree (contract : Text) (calldata : Value) (fl : FloatText) (sender : Text)
    (receipt : Option Receipt) (ctx : DecodeContext) :
    (∀ isPool isPool' custody ledger,
      decodeContractCall ⟨contract, calldata, some "pool-custody", isPool⟩ = .ok (some custody) →
      decodeContractCall ⟨contract, calldata, some "pool-ledger", isPool'⟩ = .ok (some ledger) →
      custody.fn = ledger.fn ∧ custody.args = ledger.args ∧
        describeDecodedCall fl custody sender receipt ctx =
          describeDecodedCall fl ledger sender receipt ctx) ∧
    ∀ ids, ids.Perm poolFamilies →
      describeResult fl sender receipt ctx (decodeTrying ids contract calldata) =
        describeResult fl sender receipt ctx
          (decodeContractCall ⟨contract, calldata, none, true⟩) := by
  refine ⟨fun isPool isPool' custody ledger hcustody hledger => ?_, fun ids hids =>
    describe_decodeTrying hids contract calldata fl sender receipt ctx⟩
  obtain ⟨words, hw, hc⟩ := decodeContractCall_pool (Or.inl ⟨rfl, rfl⟩) hcustody
  obtain ⟨words', hw', hl⟩ := decodeContractCall_pool (Or.inr ⟨rfl, rfl⟩) hledger
  obtain rfl : words = words' := Option.some.inj (hw.symm.trans hw')
  exact describe_eq_of_families hc hl fl sender receipt ctx

/-! ## A shared call -/

/-- The words of `set_tokens`. -/
def setTokensWords : List Text := [wordOf 0x13, wordOf 7, wordOf 8]

/-- `set_tokens`, for a family. -/
def setTokensCall (id : Text) : DecodedCall where
  interfaceId := id
  contract := "ab"
  fn := ⟨0x13, "set_tokens"⟩
  args := argsFrom [acct "token_a", acct "token_b"] setTokensWords

set_option maxRecDepth 4000 in
/-- Binding the tokens of a pool reads alike for both families, in both orders. -/
theorem poolVersions_agree_setTokens :
    describeDecodedCall noFloatText (setTokensCall "pool-custody") "cd" none emptyDecodeContext =
      describeDecodedCall noFloatText (setTokensCall "pool-ledger") "cd" none
        emptyDecodeContext ∧
    describeResult noFloatText "cd" none emptyDecodeContext
        (decodeTrying poolFamilies.reverse "ab" (.string setTokensWords.flatten)) =
      describeResult noFloatText "cd" none emptyDecodeContext
        (decodeContractCall ⟨"ab", .string setTokensWords.flatten, none, true⟩) := by
  have hdecode (id : Text) (hid : id ∈ poolFamilies) :
      decodeContractCall ⟨"ab", .string setTokensWords.flatten, some id, false⟩ =
        .ok (some (setTokensCall id)) := by
    rcases List.mem_pair.mp hid with rfl | rfl <;> rfl
  obtain ⟨hsame, horder⟩ := poolVersions_agree "ab" (.string setTokensWords.flatten) noFloatText
    "cd" none emptyDecodeContext
  exact ⟨(hsame false false _ _ (hdecode _ (by decide)) (hdecode _ (by decide))).2.2,
    horder _ (List.reverse_perm poolFamilies)⟩

end BoingObserver.Contract
