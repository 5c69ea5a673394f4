import BoingObserver.Contract.Encodings
import Mathlib.Data.List.GetD

/-!
# Router formats

The calldata the two router decoders of `tx-decode.ts` take, against the layouts
their comments give.

* `decodeCustodyRouter_eq_some_iff`: the custody router decodes exactly the words
  of a `Route`, to that route.
* `custodyRouter_format`: the same for calldata texts, with the words that come
  back from the decoded call.
* `ledgerRouter_format_iff`: when the ledger router takes nothing but the forwarded
  ledger-pool calls of the documented lengths.
-/

namespace BoingObserver.Contract

open Js

/-! ## Routes -/

/-- `pool, direction, token_in` -/
def RouterHop.words (hop : RouterHop) : List Text :=
  [hop.pool, wordOf hop.direction.toNat, hop.tokenIn]

/-- Two words around a direction of `0` or `1`. -/
structure RouterHop.IsHop (hop : RouterHop) : Prop where
  pool : IsWord hop.pool
  direction : hop.direction = 0 ∨ hop.direction = 1
  tokenIn : IsWord hop.tokenIn

structure Route where
  amountIn : Text
  minOut : Text
  recipient : Text
  deadline : Text
  hops : List RouterHop
  isWord : ∀ w ∈ [amountIn, minOut, recipient, deadline], IsWord w
  isHop : ∀ hop ∈ hops, hop.IsHop
  count : 1 ≤ hops.length ∧ hops.length ≤ 4

namespace Route

variable (r : Route)

/-- `sel | hops | amount_in | min_out | recipient | deadline` -/
def head : List Text :=
  [wordOf 0xf1, wordOf r.hops.length, r.amountIn, r.minOut, r.recipient, r.deadline]

/-- The head, then `(pool, direction, token_in)` for each hop. -/
def words : List Text := r.head ++ r.hops.flatMap RouterHop.words

def call (contract : Text) : DecodedCall where
  interfaceId := "custody-router"
  contract := contract
  fn := ⟨0xf1, "swap"⟩
  args := argsFrom custodyRouterParams r.words
  hops := some r.hops

end Route

/-! ## Hops -/

theorem length_flatMap_words (hops : List RouterHop) :
    (hops.flatMap RouterHop.words).length = 3 * hops.length := by
  induction hops with
  | nil => rfl
  | cons hop hops ih =>
    rw [List.flatMap_cons, List.length_append, ih, List.length_cons]
    exact Nat.add_comm 3 _

theorem RouterHop.IsHop.words_isWord {hop : RouterHop} (h : hop.IsHop) :
    ∀ w ∈ hop.words, IsWord w := by
  have hdir : hop.direction.toNat < 2 ^ 256 := by
    rcases h.direction with e | e <;> rw [e] <;> norm_num
  simp only [RouterHop.words, List.forall_mem_cons]
  exact ⟨h.pool, isWord_wordOf hdir, h.tokenIn, fun w hw => by cases hw⟩

def hopOf (pool direction tokenIn : Text) : Option RouterHop :=
  match wordU128 direction with
  | none => none
  | some dir => if dir ≠ 0 ∧ dir ≠ 1 then none else some ⟨pool, dir, tokenIn⟩

theorem hopOf_eq_some_iff {pool direction tokenIn : Text} (hw : ∀ w ∈ [pool, direction, tokenIn],
    IsWord w) {hop : RouterHop} :
    hopOf pool direction tokenIn = some hop ↔
      hop.IsHop ∧ [pool, direction, tokenIn] = hop.words := by
  simp only [List.forall_mem_cons] at hw
  obtain ⟨hpool, hdir, htoken, -⟩ := hw
  rw [hopOf]
  constructor
  · intro h
    cases hu : wordU128 direction with
    | none => rw [hu] at h; cases h
    | some dir =>
      rw [hu] at h
      dsimp only at h
      split_ifs at h with hbit
      obtain rfl := Option.some.inj h
      obtain ⟨-, -, rfl⟩ := wordU128_eq_some_iff.mp hu
      have hdirection : (wordValue direction : ℤ) = 0 ∨ (wordValue direction : ℤ) = 1 := by omega
      refine ⟨⟨hpool, hdirection, htoken⟩, ?_⟩
      rw [RouterHop.words, Int.toNat_natCast, wordOf_wordValue hdir]
  · rintro ⟨hhop, hwords⟩
    obtain ⟨hp, hd, ht⟩ : pool = hop.pool ∧ direction = wordOf hop.direction.toNat ∧
      tokenIn = hop.tokenIn := by simpa [RouterHop.words] using hwords
    have hu : wordU128 direction = some hop.direction.toNat := by
      rw [hd]
      exact wordU128_wordOf (by have := hhop.direction; omega)
    have hcast : (hop.direction.toNat : ℤ) = hop.direction := by
      have := hhop.direction
      omega
    rw [hu]
    dsimp only
    rw [if_neg (by have := hhop.direction; omega), hp, ht, hcast]

theorem routerHop_eq (words : List Text) (i : ℕ) :
    routerHop words i = hopOf (words.getD (6 + 3 * i) []) (words.getD (7 + 3 * i) [])
      (words.getD (8 + 3 * i) []) := rfl

/-- **The hops of words are read off them in order.** -/
theorem map_hopOf_eq_iff {rest : List Text} {n : ℕ} (hw : ∀ w ∈ rest, IsWord w)
    (hlen : rest.length = 3 * n) {hops : List RouterHop} :
    (List.range n).map (fun i => hopOf (rest.getD (3 * i) []) (rest.getD (3 * i + 1) [])
        (rest.getD (3 * i + 2) [])) = hops.map some ↔
      (∀ hop ∈ hops, hop.IsHop) ∧ rest = hops.flatMap RouterHop.words := by
  induction n generalizing rest hops with
  | zero =>
    obtain rfl := List.length_eq_zero_iff.mp hlen
    cases hops with
    | nil => exact iff_of_true rfl ⟨fun _ h => (List.not_mem_nil h).elim, rfl⟩
    | cons hop hops => exact iff_of_false (fun h => by cases h) fun h => by cases h.2
  | succ n ih =>
    match rest, hlen with
    | p :: d :: t :: rest, hlen =>
      have hrest : rest.length = 3 * n := by
        simp only [List.length_cons] at hlen
        omega
      obtain ⟨hp, hw⟩ := List.forall_mem_cons.mp hw
      obtain ⟨hd, hw⟩ := List.forall_mem_cons.mp hw
      obtain ⟨ht, hw⟩ := List.forall_mem_cons.mp hw
      have htriple : ∀ w ∈ [p, d, t], IsWord w := by
        simp only [List.forall_mem_cons]
        exact ⟨hp, hd, ht, fun w h => (List.not_mem_nil h).elim⟩
      -- hop `i + 1` of the words is hop `i` of the words after the first three
      have hrange : (List.range (n + 1)).map (fun i => hopOf ((p :: d :: t :: rest).getD (3 * i) [])
          ((p :: d :: t :: rest).getD (3 * i + 1) []) ((p :: d :: t :: rest).getD (3 * i + 2) [])) =
          hopOf p d t :: (List.range n).map (fun i => hopOf (rest.getD (3 * i) [])
            (rest.getD (3 * i + 1) []) (rest.getD (3 * i + 2) [])) := by
        rw [List.range_succ_eq_map, List.map_cons, List.map_map]
        rfl
      rw [hrange]
      cases hops with
      | nil => exact iff_of_false (fun h => by cases h) fun h => by cases h.2
      | cons hop hops =>
        have hflat : p :: d :: t :: rest = (hop :: hops).flatMap RouterHop.words ↔
            [p, d, t] = hop.words ∧ rest = hops.flatMap RouterHop.words := by
          rw [List.flatMap_cons, RouterHop.words]
          simp only [List.cons_append, List.nil_append, List.cons.injEq, and_true, and_assoc]
        rw [List.map_cons, List.cons.injEq, hopOf_eq_some_iff htriple, ih hw hrest,
          List.forall_mem_cons, hflat]
        tauto

/-! ## The custody router -/

namespace Route

theorem length_words (r : Route) : r.words.length = 6 + 3 * r.hops.length := by
  rw [words, List.length_append, length_flatMap_words]
  rfl

theorem words_isWord (r : Route) : ∀ w ∈ r.words, IsWord w := by
  have hcount := r.count
  have hhead : ∀ w ∈ r.head, IsWord w := by
    rw [head, List.forall_mem_cons, List.forall_mem_cons]
    exact ⟨isWord_wordOf (by norm_num), isWord_wordOf (by omega), r.isWord⟩
  intro w hw
  rcases List.mem_append.mp hw with hw | hw
  · exact hhead w hw
  · obtain ⟨hop, hhop, hw⟩ := List.mem_flatMap.mp hw
    exact (r.isHop hop hhop).words_isWord w hw

end Route

theorem mapM_routerHop_eq_some_iff {head rest : List Text} (hhead : head.length = 6) {n : ℕ}
    (hw : ∀ w ∈ rest, IsWord w) (hlen : rest.length = 3 * n) {hops : List RouterHop} :
    (List.range n).mapM (routerHop (head ++ rest)) = some hops ↔
      (∀ hop ∈ hops, hop.IsHop) ∧ rest = hops.flatMap RouterHop.words := by
  have hget (i : ℕ) : (head ++ rest).getD (6 + i) [] = rest.getD i [] := by
    rw [List.getD_append_right _ _ _ _ (by omega), hhead, Nat.add_sub_cancel_left]
  have hhop (i : ℕ) : routerHop (head ++ rest) i = hopOf (rest.getD (3 * i) [])
      (rest.getD (3 * i + 1) []) (rest.getD (3 * i + 2) []) := by
    rw [routerHop_eq, hget, show 7 + 3 * i = 6 + (3 * i + 1) by omega,
      show 8 + 3 * i = 6 + (3 * i + 2) by omega, hget, hget]
  rw [mapM_eq_some_iff, List.map_congr_left fun i _ => hhop i, map_hopOf_eq_iff hw hlen]

theorem exists_head {words : List Text} (h : 6 ≤ words.length) :
    ∃ w₀ w₁ w₂ w₃ w₄ w₅ rest, words = [w₀, w₁, w₂, w₃, w₄, w₅] ++ rest := by
  match words, h with
  | w₀ :: w₁ :: w₂ :: w₃ :: w₄ :: w₅ :: rest, _ => exact ⟨w₀, w₁, w₂, w₃, w₄, w₅, rest, rfl⟩

/-- **The custody router decodes exactly the words of a route**, to that route. -/
theorem decodeCustodyRouter_eq_some_iff {contract : Text} {words : List Text}
    (hw : ∀ w ∈ words, IsWord w) {call : DecodedCall} :
    decodeCustodyRouter contract words = some call ↔
      ∃ r : Route, words = r.words ∧ call = r.call contract := by
  constructor
  · intro h
    have haccepts : AcceptsCustodyRouter words := by
      by_contra hno
      rw [(decodeCustodyRouter_eq_none_iff contract).mpr hno] at h
      cases h
    obtain ⟨n, hops, hn, h1, h4, hlen, hhops, rfl⟩ := decodeCustodyRouter_eq_some h
    obtain ⟨w₀, w₁, w₂, w₃, w₄, w₅, rest, rfl⟩ := exists_head (show 6 ≤ words.length by omega)
    have hsel := eq_wordOf_of_selectorOf (hw w₀ List.mem_cons_self) haccepts.1
    obtain ⟨-, hcount⟩ := eq_wordOf_of_wordU128 (w := w₁) hn
    have hrest : rest.length = 3 * n := by
      rw [List.length_append] at hlen
      exact Nat.add_left_cancel hlen
    obtain ⟨hhop, hflat⟩ := (mapM_routerHop_eq_some_iff rfl
      (fun w h => hw w (List.mem_append_right _ h)) hrest).mp hhops
    have hn' : hops.length = n := by
      rw [hflat, length_flatMap_words] at hrest
      omega
    subst hn'
    have hmid : ∀ w ∈ [w₂, w₃, w₄, w₅], IsWord w := fun w h =>
      hw w (List.mem_append_left _ (List.mem_cons_of_mem _ (List.mem_cons_of_mem _ h)))
    have hwords : [w₀, w₁, w₂, w₃, w₄, w₅] ++ rest =
        Route.words ⟨w₂, w₃, w₄, w₅, hops, hmid, hhop, by omega⟩ := by
      rw [Route.words, Route.head, ← hflat, hsel, hcount]
    refine ⟨⟨w₂, w₃, w₄, w₅, hops, hmid, hhop, by omega⟩, hwords, ?_⟩
    rw [hwords]
    rfl
  · rintro ⟨r, rfl, rfl⟩
    have hcount := r.count
    have hlen := r.length_words
    have hsel : selectorOf r.words = some 0xf1 := selectorOf_wordOf (by omega) _
    have hn : wordU128 (r.words.getD 1 []) = some r.hops.length := wordU128_wordOf (by omega)
    have hhops : (List.range r.hops.length).mapM (routerHop r.words) = some r.hops :=
      (mapM_routerHop_eq_some_iff rfl
        (fun w h => hw w (List.mem_append_right _ h)) (length_flatMap_words _)).mpr ⟨r.isHop, rfl⟩
    rw [decodeCustodyRouter, if_neg (by rw [hsel]; simp; omega), hn]
    dsimp only
    rw [if_neg (by omega), if_neg (by omega), hhops]
    rfl

theorem decodeContractCall_custodyRouter (contract s : Text) (isPool : Bool) :
    decodeContractCall ⟨contract, .string s, some "custody-router", isPool⟩ =
      .ok ((calldataWords (.string s)).bind
        (decodeCustodyRouter (toLowerCase (strip0x contract)))) := by
  rw [decodeContractCall_declared (by decide) (by decide)]
  cases calldataWords (.string s) <;> rfl

def callWords (call : DecodedCall) : List Text :=
  wordOf call.fn.selector :: call.args.map (·.word) ++
    (call.hops.getD []).flatMap RouterHop.words

theorem Route.callWords_call (r : Route) (contract : Text) :
    callWords (r.call contract) = r.words := rfl

/-- **The custody-router format is exact**: calldata is decoded iff it spells a route, its hops are
those of the route in order, and the decoded call spells the calldata. -/
theorem custodyRouter_format (contract s : Text) (isPool : Bool) :
    (∀ call, decodeContractCall ⟨contract, .string s, some "custody-router", isPool⟩ =
        .ok (some call) ↔
      ∃ r : Route, toLowerCase (strip0x (trim s)) = r.words.flatten ∧
        call = r.call (toLowerCase (strip0x contract))) ∧
    (∀ r : Route, r.words.length = 6 + 3 * r.hops.length) ∧
    ∀ call, decodeContractCall ⟨contract, .string s, some "custody-router", isPool⟩ =
        .ok (some call) →
      (callWords call).flatten = toLowerCase (strip0x (trim s)) := by
  have hiff (call : DecodedCall) :
      decodeContractCall ⟨contract, .string s, some "custody-router", isPool⟩ =
          .ok (some call) ↔
        ∃ r : Route, toLowerCase (strip0x (trim s)) = r.words.flatten ∧
          call = r.call (toLowerCase (strip0x contract)) := by
    rw [decodeContractCall_custodyRouter, Except.ok.injEq, Option.bind_eq_some_iff]
    constructor
    · rintro ⟨words, hwords, h⟩
      obtain ⟨-, hw, htext⟩ := calldataWords_string_eq_some_iff.mp hwords
      obtain ⟨r, rfl, hcall⟩ := (decodeCustodyRouter_eq_some_iff hw).mp h
      exact ⟨r, htext, hcall⟩
    · rintro ⟨r, htext, hcall⟩
      refine ⟨r.words, ?_, (decodeCustodyRouter_eq_some_iff r.words_isWord).mpr ⟨r, rfl, hcall⟩⟩
      exact calldataWords_string_eq_some_iff.mpr ⟨List.cons_ne_nil _ _, r.words_isWord, htext⟩
  refine ⟨hiff, Route.length_words, fun call h => ?_⟩
  obtain ⟨r, htext, rfl⟩ := (hiff call).mp h
  rw [r.callWords_call, htext]

/-! ## The ledger router -/

/-- The selector, the selector of the forwarded call and its number of words: 128-byte swaps and
liquidity calls, 160-byte `swap_to`, 192-byte `remove_liquidity_to`. -/
def forwardShapes : List (ℕ × ℕ × ℕ) :=
  [(0xe0, 0x10, 4), (0xe0, 0x11, 4), (0xe0, 0x12, 4), (0xe1, 0x15, 5), (0xe2, 0x16, 6)]

def IsForward (words : List Text) : Prop :=
  ∃ sel inner, selectorOf words = some sel ∧ selectorOf (words.drop 2) = some inner ∧
    (sel, inner, (words.drop 2).length) ∈ forwardShapes

def ledgerInput (words : List Text) : CallInput where
  contract := words.getD 1 []
  calldata := .string (words.drop 2).flatten
  interfaceId := some "pool-ledger"

/-- What is decoded forwards a ledger-pool call of the documented length, and `inner` is that
call. -/
def ForwardsExactly (input : CallInput) : Prop :=
  ∀ call, decodeContractCall input = .ok (some call) →
    ∃ words sel inner, calldataWords input.calldata = some words ∧ selectorOf words = some sel ∧
      (sel, (words.drop 2).length) ∈ [(0xe0, 4), (0xe1, 5), (0xe2, 6)] ∧
      decodeContractCall (ledgerInput words) = .ok (some inner) ∧ call.inner = some inner

def forwardedCall (words : List Text) : Option DecodedCall :=
  (decodeWithFunctions "pool-custody" (toLowerCase (strip0x (words.getD 1 []))) (words.drop 2)
    poolCustody).or
  (decodeWithFunctions "pool-ledger" (toLowerCase (strip0x (words.getD 1 []))) (words.drop 2)
    poolLedger)

def ledgerCall (contract : Text) (words : List Text) (inner : DecodedCall) : DecodedCall :=
  let sel := (selectorOf words).getD 0
  { interfaceId := "ledger-router"
    contract := contract
    fn := ⟨sel, if sel = 0xe0 then "forward_pool_call"
      else if sel = 0xe1 then "forward_pool_call_v2" else "forward_pool_call_v3"⟩
    args := [argFrom "pool" .account (words.getD 1 [])]
    inner := some inner }

/-- **A ledger router decodes what it accepts**, around the call it finds in the forwarded words. -/
theorem decodeLedgerRouter_eq_some_iff {contract : Text} {words : List Text}
    (hw : ∀ w ∈ words, IsWord w) {call : DecodedCall} :
    decodeLedgerRouter contract words = .ok (some call) ↔
      AcceptsLedgerRouter words ∧
        ∃ inner, forwardedCall words = some inner ∧ call = ledgerCall contract words inner := by
  rw [decodeLedgerRouter]
  cases hs : selectorOf words with
  | none =>
    refine iff_of_false (fun h => by cases h) ?_
    rintro ⟨⟨⟨sel, -, hsel⟩, -⟩, -⟩
    rw [hs] at hsel
    cases hsel
  | some sel =>
    dsimp only
    by_cases hc : sel ∉ [0xe0, 0xe1, 0xe2] ∨ words.length < 3
    · rw [if_pos hc]
      refine iff_of_false (fun h => by cases h) ?_
      rintro ⟨⟨⟨sel', hmem, hsel⟩, hlen, -⟩, -⟩
      rw [hs] at hsel
      obtain rfl := Option.some.inj hsel
      rcases hc with hc | hc
      · exact hc hmem
      · omega
    · have hsel : sel ∈ [0xe0, 0xe1, 0xe2] := by tauto
      have haccepts : AcceptsLedgerRouter words ↔ AcceptsPool (words.drop 2) :=
        ⟨fun h => h.2.2, fun h => ⟨⟨sel, hsel, hs⟩, by omega, h⟩⟩
      have hnone : forwardedCall words = none ↔ ¬ AcceptsPool (words.drop 2) :=
        or_pools_eq_none_iff _
      rw [if_neg hc, decodePoolCall_forwarded hw (by omega), haccepts]
      cases hi : selectorOf (words.drop 2) with
      | none =>
        refine iff_of_false (fun h => by cases h) ?_
        rintro ⟨h | h, -⟩ <;> exact h.selector hi
      | some s =>
        dsimp only
        rw [← forwardedCall]
        cases hf : forwardedCall words with
        | none =>
          refine iff_of_false (fun h => by cases h) ?_
          rintro ⟨-, inner, h, -⟩
          cases h
        | some inner =>
          have hpool : AcceptsPool (words.drop 2) := by
            by_contra hno
            rw [hnone.mpr hno] at hf
            cases hf
          have hcall : ledgerCall contract words inner =
              { interfaceId := "ledger-router", contract := contract,
                fn := ⟨sel, if sel = 0xe0 then "forward_pool_call"
                  else if sel = 0xe1 then "forward_pool_call_v2" else "forward_pool_call_v3"⟩,
                args := [argFrom "pool" .account (words.getD 1 [])], inner := some inner } := by
            rw [ledgerCall, hs]
            rfl
          constructor
          · intro h
            refine ⟨hpool, inner, rfl, ?_⟩
            rw [hcall]
            exact (Option.some.inj (Except.ok.inj h)).symm
          · rintro ⟨-, inner', hinner, rfl⟩
            obtain rfl := Option.some.inj hinner
            rw [hcall]
            rfl

theorem decodeContractCall_ledgerRouter (contract s : Text) (isPool : Bool) :
    decodeContractCall ⟨contract, .string s, some "ledger-router", isPool⟩ =
      match calldataWords (.string s) with
      | none => .ok none
      | some words => decodeLedgerRouter (toLowerCase (strip0x contract)) words := by
  rw [decodeContractCall_declared (by decide) (by decide)]
  cases calldataWords (.string s) <;> rfl

theorem decodeContractCall_ledgerInput {words : List Text} (hw : ∀ w ∈ words, IsWord w)
    (hlen : 3 ≤ words.length) :
    decodeContractCall (ledgerInput words) =
      .ok (decodeWithFunctions "pool-ledger" (toLowerCase (strip0x (words.getD 1 [])))
        (words.drop 2) poolLedger) := by
  rw [ledgerInput, decodeContractCall_declared (by decide) (by decide),
    calldataWords_drop hw (by omega)]
  rfl

/-- The forwarded calls of the documented lengths are the documented shapes. -/
theorem forwardShapes_of_ledger : ∀ f ∈ poolLedger, ∀ e ∈ [(0xe0, 4), (0xe1, 5), (0xe2, 6)],
    f.params.length + 1 = e.2 → (e.1, f.selector, e.2) ∈ forwardShapes := by
  decide +kernel

/-- No custody-pool call has a documented shape. -/
theorem forwardShapes_not_custody : ∀ f ∈ poolCustody, ∀ e ∈ forwardShapes,
    f.selector = e.2.1 → f.params.length + 1 ≠ e.2.2 := by
  decide +kernel

theorem forwardShapes_lengths : ∀ e ∈ forwardShapes,
    (e.1, e.2.2) ∈ [(0xe0, 4), (0xe1, 5), (0xe2, 6)] := by
  decide

/-- **The ledger-router format is exact** iff every call it accepts has a documented shape. -/
theorem ledgerRouter_format_iff (contract s : Text) (isPool : Bool) :
    ForwardsExactly ⟨contract, .string s, some "ledger-router", isPool⟩ ↔
      ∀ words, calldataWords (.string s) = some words → AcceptsLedgerRouter words →
        IsForward words := by
  rw [ForwardsExactly, decodeContractCall_ledgerRouter]
  cases hc : calldataWords (.string s) with
  | none => exact iff_of_true (fun call h => by cases h) fun words h => by cases h
  | some words =>
    have hw := isWord_of_calldataWords hc
    simp only [Option.some.injEq, forall_eq', decodeLedgerRouter_eq_some_iff hw]
    constructor
    · intro h haccepts
      obtain ⟨inner, hinner⟩ : ∃ inner, forwardedCall words = some inner := by
        rw [← Option.ne_none_iff_exists']
        exact fun hnone => (or_pools_eq_none_iff _).mp hnone haccepts.2.2
      obtain ⟨_, sel, inner', rfl, hsel, hlen, hledger, -⟩ :=
        h _ ⟨haccepts, inner, hinner, rfl⟩
      rw [decodeContractCall_ledgerInput hw haccepts.2.1] at hledger
      obtain ⟨f, hf, hcalls, -⟩ := decodeWithFunctions_eq_some (Except.ok.inj hledger)
      simp only [calls, decide_eq_true_eq] at hcalls
      exact ⟨sel, f.selector, hsel, hcalls.1,
        forwardShapes_of_ledger f hf _ hlen hcalls.2.1⟩
    · rintro h call ⟨haccepts, inner, hinner, rfl⟩
      obtain ⟨sel, isel, hsel, hisel, hshape⟩ := h haccepts
      have hcustody : decodeWithFunctions "pool-custody"
          (toLowerCase (strip0x (words.getD 1 []))) (words.drop 2) poolCustody = none := by
        refine decodeWithFunctions_eq_none_iff.mpr fun f hf => decide_eq_false ?_
        rintro ⟨hfsel, hflen, -⟩
        rw [hisel] at hfsel
        exact forwardShapes_not_custody f hf _ hshape (Option.some.inj hfsel).symm hflen
      refine ⟨words, sel, inner, rfl, hsel, forwardShapes_lengths _ hshape, ?_, rfl⟩
      rw [decodeContractCall_ledgerInput hw haccepts.2.1]
      rw [forwardedCall, hcustody, Option.none_or] at hinner
      rw [hinner]

/-! ## A custody call behind the ledger router -/

/-- Selector `0xe0`, a pool, and a custody-pool swap of five words. -/
def custodyForward : List Text :=
  [wordOf 0xe0, wordOf 7, wordOf 0x10, wordOf 0, wordOf 5, wordOf 1, wordOf 9]

theorem custodyForward_isWord : ∀ w ∈ custodyForward, IsWord w := by
  decide +kernel

def custodyForwardCall : DecodedCall :=
  ledgerCall "ab" custodyForward (TableCall "pool-custody" (wordOf 7)
    (poolCustody.head (by decide)) (custodyForward.drop 2))

set_option maxRecDepth 4000 in
theorem decode_custodyForward :
    decodeContractCall
        ⟨"ab", .string ('0' :: 'x' :: custodyForward.flatten), some "ledger-router", false⟩ =
      .ok (some custodyForwardCall) := rfl

/-- **The router forwards a 160-byte call under the selector of 128-byte calls.** -/
theorem custodyForward_accepted :
    ¬ ForwardsExactly
      ⟨"ab", .string ('0' :: 'x' :: custodyForward.flatten), some "ledger-router", false⟩ := by
  intro h
  obtain ⟨words, sel, inner, hc, hsel, hlen, -⟩ := h _ decode_custodyForward
  have hwords : calldataWords (.string ('0' :: 'x' :: custodyForward.flatten)) =
      some custodyForward :=
    calldataWords_flatten (List.cons_ne_nil _ _) custodyForward_isWord
  obtain rfl : custodyForward = words := Option.some.inj (hwords.symm.trans hc)
  have hsel' : selectorOf custodyForward = some 0xe0 := by decide +kernel
  obtain rfl : 0xe0 = sel := Option.some.inj (hsel'.symm.trans hsel)
  exact absurd hlen (by decide)

end BoingObserver.Contract
