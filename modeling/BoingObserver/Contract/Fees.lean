import BoingObserver.Contract.Amounts

/-!
# Pool fees and totality

When `describeDecodedCall` of `tx-decode.ts` gives a description, and which fee
amounts it shows.

The only step that can throw for a decoded call is the fee row of a single hop
of the custody family, which takes `10000 - feeBps` to an integer; the fee shown
there is what the integer leaves of the input.

* `feeRow_sane_iff`: the row is built, with a fee between zero and the input, iff
  the share left to the trader fits (`ShareFits`).
* `describeDecodedCall_sane_iff`: the same for every decoded call.
-/

namespace BoingObserver.Contract

open Js

/-! ## What is shown of a fee -/

def titleOf : Segment → Option Text
  | .amount _ title => title
  | _ => none

def isFeeRow (row : DetailRow) : Bool := row.label = ("Pool fee" : Text)

def feeTitles (rows : List DetailRow) : List Text :=
  (rows.filter isFeeRow).flatMap fun row => row.value.filterMap titleOf

/-- What a swap took in: the first swap event of the receipt says it, else the call. -/
def inputAmount (receipt : Option Receipt) (call : DecodedCall) : ℤ :=
  ((swapEvents receipt).head?.map (·.1)).getD (argU call "amount_in")

/-- Every fee amount lies between zero and the input. -/
def FeesSane (input : ℤ) (rows : List DetailRow) : Prop :=
  ∀ title ∈ feeTitles rows, ∃ fee, title = rawUnits fee ∧ 0 ≤ fee ∧ fee ≤ input

def swapPool (call : DecodedCall) : Option Text :=
  if isCustodyRouter call then
    match call.hops with
    | some [hop] => some hop.pool
    | _ => none
  else if call.interfaceId = "pool-custody" then some call.contract
  else none

def chargedPool (call : DecodedCall) : Option Text :=
  if isCustodyRouter call then swapPool call
  else if isSwap (effective call) then swapPool (effective call)
  else none

/-- The share of the amount the fee leaves is an integer, and between zero and the amount. -/
def ShareFits (fl : FloatText) (feeBps : Number) (amount : ℤ) : Prop :=
  ∃ k, (fl.afterFeeBps feeBps).toInt? = some k ∧
    -10000 < amount * k ∧ amount * k < 10000 * (amount + 1)

def FeeFits (fl : FloatText) (call : DecodedCall) (receipt : Option Receipt)
    (ctx : DecodeContext) : Prop :=
  ∀ pool, chargedPool call = some pool → ∀ feeBps, feeBpsOf pool ctx = some feeBps →
    ShareFits fl feeBps (inputAmount receipt (effective call))

/-- For inputs from `10000` on, the share fits iff it is a whole number of basis points. -/
theorem shareFits_iff_of_le {fl : FloatText} {feeBps : Number} {amount : ℤ}
    (h : 10000 ≤ amount) :
    ShareFits fl feeBps amount ↔
      ∃ k, (fl.afterFeeBps feeBps).toInt? = some k ∧ 0 ≤ k ∧ k ≤ 10000 := by
  refine exists_congr fun k => and_congr_right fun _ => ?_
  constructor
  · rintro ⟨hlo, hhi⟩
    constructor
    · by_contra hneg
      have := Int.mul_le_mul_of_nonneg_left (show k ≤ -1 by omega) (show 0 ≤ amount by omega)
      omega
    · by_contra hbig
      have := Int.mul_le_mul_of_nonneg_left (show 10001 ≤ k by omega) (show 0 ≤ amount by omega)
      omega
  · rintro ⟨hlo, hhi⟩
    have h0 := Int.mul_nonneg (show 0 ≤ amount by omega) hlo
    have h1 := Int.mul_le_mul_of_nonneg_left hhi (show 0 ≤ amount by omega)
    omega

/-! ## Rows without a fee -/

theorem feeTitles_append (rows rows' : List DetailRow) :
    feeTitles (rows ++ rows') = feeTitles rows ++ feeTitles rows' := by
  rw [feeTitles, List.filter_append, List.flatMap_append]
  rfl

def NoFee (rows : List DetailRow) : Prop := ∀ row ∈ rows, isFeeRow row = false

theorem NoFee.feeTitles_eq {rows : List DetailRow} (h : NoFee rows) : feeTitles rows = [] := by
  have hnil : rows.filter isFeeRow = [] :=
    List.filter_eq_nil_iff.mpr fun row hrow => Bool.not_eq_true _ ▸ h row hrow
  rw [feeTitles, hnil]
  rfl

theorem NoFee.sane {rows : List DetailRow} (h : NoFee rows) (input : ℤ) : FeesSane input rows := by
  intro title htitle
  rw [h.feeTitles_eq] at htitle
  cases htitle

theorem noFee_of_any {rows : List DetailRow} (h : rows.any isFeeRow = false) : NoFee rows :=
  fun row hrow => by simpa using List.any_eq_false.mp h row hrow

@[simp] theorem noFee_nil : NoFee [] := fun _ h => by cases h

@[simp] theorem noFee_cons {row : DetailRow} {rows : List DetailRow} :
    NoFee (row :: rows) ↔ isFeeRow row = false ∧ NoFee rows := List.forall_mem_cons

@[simp] theorem noFee_append {rows rows' : List DetailRow} :
    NoFee (rows ++ rows') ↔ NoFee rows ∧ NoFee rows' := List.forall_mem_append

theorem noFee_map {label : Text} (h : label ≠ "Pool fee") (values : List (List Segment)) :
    NoFee (values.map (DetailRow.mk label)) := by
  intro row hrow
  obtain ⟨value, -, rfl⟩ := List.mem_map.mp hrow
  exact decide_eq_false h

theorem feesSane_append_iff {before fees after : List DetailRow} (h : NoFee before)
    (h' : NoFee after) {input : ℤ} :
    FeesSane input (before ++ fees ++ after) ↔ FeesSane input fees := by
  rw [FeesSane, feeTitles_append, feeTitles_append, h.feeTitles_eq, h'.feeTitles_eq,
    List.nil_append, List.append_nil]
  rfl

/-! ## The rows of each description -/

theorem noFee_accountRow {label : Text} (h : label ≠ "Pool fee") (account : Option Text)
    (ctx : DecodeContext) : NoFee (accountRow label account ctx) := by
  rw [accountRow]
  cases nonEmpty account with
  | none => exact noFee_nil
  | some id => exact noFee_cons.mpr ⟨decide_eq_false h, noFee_nil⟩

theorem noFee_vaultRows (vault : Text) (ctx : DecodeContext) : NoFee (vaultRows vault ctx) := by
  rw [vaultRows]
  cases nonEmpty ((ctx.vaults vault).map (·.pool)) with
  | none => exact noFee_cons.mpr ⟨rfl, noFee_nil⟩
  | some pool => exact noFee_cons.mpr ⟨rfl, noFee_cons.mpr ⟨rfl, noFee_nil⟩⟩

section Rows

variable (call : DecodedCall) (sender : Text) (receipt : Option Receipt) (ctx : DecodeContext)

theorem noFee_liquidity : NoFee (describeLiquidity call sender receipt ctx).rows := by
  rw [describeLiquidity]
  split_ifs
  · rw [describeAddLiquidity]
    cases addEvent receipt <;> exact noFee_of_any rfl
  · rw [describeRemoveLiquidity]
    simp only [noFee_append]
    refine ⟨⟨⟨⟨noFee_of_any rfl, ?_⟩, noFee_of_any rfl⟩, noFee_accountRow (by decide) _ ctx⟩,
      noFee_accountRow (by decide) _ ctx⟩
    cases removeEvent receipt <;> exact noFee_of_any rfl

theorem noFee_vault {d : TxDescription} (h : describeVault call sender receipt ctx = some d) :
    NoFee d.rows := by
  have hvault := noFee_vaultRows call.contract ctx
  rw [describeVault] at h
  split_ifs at h
  · obtain rfl := Option.some.inj h
    rw [describeDeposit]
    cases depositEvent receipt <;> exact noFee_append.mpr ⟨hvault, noFee_of_any rfl⟩
  · obtain rfl := Option.some.inj h
    simp only [describeWithdraw, noFee_append]
    refine ⟨⟨⟨hvault, noFee_of_any rfl⟩, ?_⟩, noFee_of_any rfl⟩
    cases removeEvent receipt <;> exact noFee_of_any rfl
  · obtain rfl := Option.some.inj h
    simp only [describeTransferShares, noFee_append]
    exact ⟨⟨hvault, noFee_of_any rfl⟩, noFee_accountRow (by decide) _ ctx⟩

theorem noFee_generic (hnames : ∀ a ∈ call.args, a.name ≠ "Pool fee") :
    NoFee (describeGeneric call sender receipt ctx).rows := by
  simp only [describeGeneric, noFee_append]
  refine ⟨⟨noFee_of_any rfl, fun row hrow => ?_⟩, noFee_of_any rfl⟩
  obtain ⟨a, ha, hrow⟩ := List.mem_filterMap.mp hrow
  have hlabel : row.label = a.name := by
    rw [argumentRow] at hrow
    split at hrow <;> cases hrow <;> rfl
  rw [isFeeRow, hlabel]
  exact decide_eq_false (hnames a ha)

end Rows

/-! ## Tokens -/

def accountArguments (name : Text) : List Text :=
  if name = "approve" then ["spender"]
  else if name = "transfer" then ["to"]
  else if name = "transfer_from" then ["from", "to"]
  else if name = "mint_first" then ["to"]
  else []

theorem describeToken_total {call : DecodedCall} (sender : Text) (receipt : Option Receipt)
    (ctx : DecodeContext)
    (h : ∀ name ∈ accountArguments call.fn.name, argAcct call name ≠ none) :
    ∃ d, describeToken call sender receipt ctx = .ok d ∧ ∀ d', d = some d' → NoFee d'.rows := by
  have hseg {name : Text} (hname : argAcct call name ≠ none) :
      ∃ id text, acctOrThrow (argAcct call name) ctx = .ok (.account id text .account) := by
    obtain ⟨id, hid⟩ := Option.ne_none_iff_exists'.mp hname
    rw [hid]
    exact ⟨_, _, rfl⟩
  rw [describeToken]
  rw [accountArguments] at h
  split_ifs with h1 h2 h3 h4
  · rw [if_pos h1] at h
    obtain ⟨id, text, hs⟩ := hseg (h "spender" (by decide))
    rw [describeApprove, hs]
    exact ⟨_, rfl, fun d' hd => by cases hd; exact noFee_of_any rfl⟩
  · rw [if_neg h1, if_pos h2] at h
    obtain ⟨id, text, hs⟩ := hseg (h "to" (by decide))
    rw [describeTransfer, hs]
    exact ⟨_, rfl, fun d' hd => by cases hd; exact noFee_of_any rfl⟩
  · rw [if_neg h1, if_neg h2, if_pos h3] at h
    obtain ⟨id, text, hs⟩ := hseg (h "from" (by decide))
    obtain ⟨id', text', hs'⟩ := hseg (h "to" (by decide))
    rw [describeTransferFrom, hs, hs']
    exact ⟨_, rfl, fun d' hd => by cases hd; exact noFee_of_any rfl⟩
  · rw [if_neg h1, if_neg h2, if_neg h3, if_pos h4] at h
    obtain ⟨id, text, hs⟩ := hseg (h "to" (by decide))
    rw [describeMint, hs]
    exact ⟨_, rfl, fun d' hd => by cases hd; exact noFee_of_any rfl⟩
  · exact ⟨none, rfl, fun d' hd => by cases hd⟩

/-! ## Decoded calls -/

theorem accountArguments_typed : ∀ e ∈ contractInterfaces, e.1 ∈ fungibleIfaces →
    ∀ f ∈ e.2.functions, ∀ name ∈ accountArguments f.name,
      ∃ p ∈ f.params, p.name = name ∧ p.type = .account := by
  decide +kernel

theorem params_ne_fee : ∀ e ∈ contractInterfaces, ∀ f ∈ e.2.functions, ∀ p ∈ f.params,
    p.name ≠ "Pool fee" := by
  decide +kernel

theorem exists_argFrom_mem {params : List AbiParam} {words : List Text}
    (hlen : params.length ≤ words.tail.length) {p : AbiParam} (hp : p ∈ params) :
    ∃ w, argFrom p.name p.type w ∈ argsFrom params words := by
  obtain ⟨i, hi, rfl⟩ := List.mem_iff_getElem.mp hp
  refine ⟨words.tail[i], ?_⟩
  rw [argsFrom, List.mem_iff_getElem]
  refine ⟨i, by rw [List.length_zipWith]; omega, ?_⟩
  rw [List.getElem_zipWith]

theorem argAcct_of_mem {call : DecodedCall} (hnodup : (call.args.map (·.name)).Nodup)
    {a : DecodedArg} (ha : a ∈ call.args) : argAcct call a.name = a.account := by
  rw [argAcct, find?_name_of_mem hnodup ha]
  rfl

/-- A call of a table has the accounts its description names, and no argument named as a fee. -/
theorem tableCall_args {words : List Text} (hw : ∀ w ∈ words, IsWord w) {contract : Text}
    {e : Text × ContractInterface} (he : e ∈ contractInterfaces) {f : ContractFunction}
    (hf : f ∈ e.2.functions) (hc : calls words f = true) :
    (e.1 ∈ fungibleIfaces → ∀ name ∈ accountArguments f.name,
      argAcct (TableCall e.1 contract f words) name ≠ none) ∧
    ∀ a ∈ (TableCall e.1 contract f words).args, a.name ≠ "Pool fee" := by
  refine ⟨fun hid name hname => ?_, fun a ha => ?_⟩
  · obtain ⟨p, hp, rfl, htype⟩ := accountArguments_typed e he hid f hf name hname
    have hlen : f.params.length ≤ words.tail.length := by
      simp only [calls, decide_eq_true_eq] at hc
      rw [List.length_tail]
      omega
    obtain ⟨w, hmem⟩ := exists_argFrom_mem hlen hp
    have hargs : WordArgs (TableCall e.1 contract f words) := wordArgs_of_calls hw he hf hc
    have hacct : argAcct (TableCall e.1 contract f words) p.name =
        if p.type = .account then some w else none := argAcct_of_mem hargs.nodup hmem
    rw [hacct, if_pos htype]
    exact Option.some_ne_none w
  · obtain ⟨p, hp, w, -, rfl⟩ := mem_argsFrom ha
    exact params_ne_fee e he f hf p hp

theorem describeOther_total {words : List Text} (hw : ∀ w ∈ words, IsWord w) {contract : Text}
    {call : DecodedCall} (hcall : Decodes contract words call)
    (hrouter : isCustodyRouter call = false) (sender : Text) (receipt : Option Receipt)
    (ctx : DecodeContext) :
    ∃ d, describeOther call sender receipt ctx = .ok d ∧ NoFee d.rows := by
  have hargs : (call.interfaceId ∈ fungibleIfaces → ∀ name ∈ accountArguments call.fn.name,
      argAcct call name ≠ none) ∧ ∀ a ∈ call.args, a.name ≠ "Pool fee" := by
    cases hcall with
    | table hid hf hc => exact tableCall_args hw (mem_of_lookup_eq_some hid) hf hc
    | custodyRouter hd =>
      obtain ⟨n, hops, -, -, -, -, -, rfl⟩ := decodeCustodyRouter_eq_some hd
      cases hrouter
    | ledgerRouter hid hc =>
      have hid' : ("ledger-router" : Text) ∉ fungibleIfaces := by decide
      refine ⟨fun h => absurd h hid', fun a ha => ?_⟩
      rw [List.mem_singleton.mp ha]
      exact (by decide : ("pool" : Text) ≠ "Pool fee")
  have hgeneric := noFee_generic call sender receipt ctx hargs.2
  have hfungible : ∃ d, describeFungible call sender receipt ctx = .ok d ∧ NoFee d.rows := by
    rw [describeFungible]
    split_ifs with hid
    · obtain ⟨d, hd, hrows⟩ := describeToken_total sender receipt ctx (hargs.1 hid)
      rw [hd]
      cases d with
      | some d => exact ⟨d, rfl, hrows d rfl⟩
      | none => exact ⟨_, rfl, hgeneric⟩
    · exact ⟨_, rfl, hgeneric⟩
  rw [describeOther]
  split_ifs with hv
  · cases hd : describeVault call sender receipt ctx with
    | some d => exact ⟨d, rfl, noFee_vault call sender receipt ctx hd⟩
    | none => exact hfungible
  · exact hfungible

/-! ## Swaps -/

theorem rawUnits_injective : Function.Injective rawUnits := fun a b h => by
  rw [rawUnits, rawUnits, List.append_left_inj] at h
  exact intText_injective h

/-- What is left of an amount after a fee, in whole units, is between zero and the amount. -/
theorem share_iff {amount x : ℤ} (h0 : 0 ≤ amount) :
    (0 ≤ amount - x.tdiv 10000 ∧ amount - x.tdiv 10000 ≤ amount) ↔
      -10000 < x ∧ x < 10000 * (amount + 1) := by
  -- division goes towards zero
  rcases Int.le_total 0 x with hx | hx
  · rw [Int.tdiv_eq_ediv_of_nonneg hx]
    omega
  · obtain ⟨y, rfl⟩ : ∃ y, x = -y := ⟨-x, by omega⟩
    rw [Int.neg_tdiv, Int.tdiv_eq_ediv_of_nonneg (by omega)]
    omega

/-- **The fee row is built, and its fee lies between zero and the input, iff the share fits.** -/
theorem feeRow_sane_iff {fl : FloatText} {feeBps : Option Number} {amount : ℤ} (h0 : 0 ≤ amount)
    {tokenIn : Option Text} (htoken : feeBps ≠ none → tokenIn ≠ none) {ctx : DecodeContext} :
    (∃ rows, feeRow fl feeBps amount tokenIn ctx = .ok rows ∧ FeesSane amount rows) ↔
      ∀ bps, feeBps = some bps → ShareFits fl bps amount := by
  cases feeBps with
  | none => exact iff_of_true ⟨[], rfl, noFee_nil.sane amount⟩ fun bps h => by cases h
  | some bps =>
    obtain ⟨token, rfl⟩ := Option.ne_none_iff_exists'.mp (htoken (Option.some_ne_none bps))
    simp only [Option.some.injEq, forall_eq', ShareFits, feeRow]
    cases hk : (fl.afterFeeBps bps).toInt? with
    | none => exact iff_of_false (by rintro ⟨rows, h, -⟩; cases h) (by rintro ⟨k, h, -⟩; cases h)
    | some k =>
      simp only [Except.ok.injEq, exists_eq_left', Option.some.injEq]
      rw [← share_iff h0]
      constructor
      · intro h
        obtain ⟨fee, hfee, hlo, hhi⟩ := h _ List.mem_cons_self
        rw [rawUnits_injective hfee]
        exact ⟨hlo, hhi⟩
      · intro h title htitle
        exact ⟨_, List.mem_singleton.mp htitle, h⟩

theorem noFee_routeFees (fl : FloatText) (hops : List Hop) (ctx : DecodeContext) :
    NoFee (routeFees fl hops ctx) := by
  rw [routeFees]
  cases hops.mapM fun h => feeBpsOf h.pool ctx with
  | none => exact noFee_nil
  | some fees =>
    dsimp only
    split_ifs
    · exact noFee_of_any rfl
    · exact noFee_nil

theorem noFee_rateRows (fl : FloatText) (actualIn : ℤ) (received : Option ℤ)
    (tokenIn tokenOut : Option Text) (ctx : DecodeContext) :
    NoFee (rateRows fl actualIn received tokenIn tokenOut ctx) := by
  unfold rateRows
  split
  · exact noFee_map (by decide) _
  · exact noFee_nil

theorem noFee_routeRow (hops : List Hop) (ctx : DecodeContext) : NoFee [routeRow hops ctx] := by
  refine noFee_cons.mpr ⟨decide_eq_false ?_, noFee_nil⟩
  simp only [routeRow]
  split_ifs
  · intro h
    have hfirst : some 'R' = some 'P' := congrArg List.head? h
    cases hfirst
  · decide

theorem noFee_routerRows (router : Option DecodedCall) (ctx : DecodeContext) :
    NoFee (routerRows router ctx) := by
  cases router <;> exact noFee_of_any rfl

theorem noFee_deadlineRows (deadline : ℤ) : NoFee (deadlineRows deadline) := by
  rw [deadlineRows]
  split_ifs
  · exact noFee_of_any rfl
  · exact noFee_nil

section Swap

variable {fl : FloatText} {call : DecodedCall} {sender : Text} {receipt : Option Receipt}
  {ctx : DecodeContext} {viaRouter : Option DecodedCall}

theorem describeSwap_rows (sender : Text) (viaRouter : Option DecodedCall)
    {fees : List DetailRow} (h : feeRows fl call (swapHops ctx call) (inputAmount receipt call)
      ((swapHops ctx call).head?.bind (·.tokenIn)) ctx = .ok fees) :
    ∃ d before after, describeSwap fl call sender receipt ctx viaRouter = .ok d ∧
      d.rows = before ++ fees ++ after ∧ NoFee before ∧ NoFee after := by
  rw [describeSwap, ← inputAmount, h]
  refine ⟨_, _, _, rfl, List.append_assoc _ _ _, ?_, ?_⟩
  · simp only [noFee_append]
    refine ⟨⟨⟨⟨⟨noFee_of_any rfl, noFee_map (by decide) _⟩, ?_⟩, noFee_rateRows _ _ _ _ _ _⟩,
      noFee_routeRow _ _⟩, noFee_routerRows _ _⟩
    cases isOk receipt <;> exact noFee_of_any rfl
  · exact noFee_append.mpr ⟨noFee_of_any rfl, noFee_deadlineRows _⟩

theorem describeSwap_fees :
    (∃ d, describeSwap fl call sender receipt ctx viaRouter = .ok d ∧
        FeesSane (inputAmount receipt call) d.rows) ↔
      ∃ fees, feeRows fl call (swapHops ctx call) (inputAmount receipt call)
        ((swapHops ctx call).head?.bind (·.tokenIn)) ctx = .ok fees ∧
          FeesSane (inputAmount receipt call) fees := by
  cases hfees : feeRows fl call (swapHops ctx call) (inputAmount receipt call)
      ((swapHops ctx call).head?.bind (·.tokenIn)) ctx with
  | error e =>
    refine iff_of_false ?_ (by rintro ⟨fees, h, -⟩; cases h)
    rintro ⟨d, h, -⟩
    rw [describeSwap, ← inputAmount, hfees] at h
    cases h
  | ok fees =>
    obtain ⟨d, before, after, hd, hrows, hbefore, hafter⟩ :=
      describeSwap_rows sender viaRouter hfees
    simp only [hd, Except.ok.injEq, exists_eq_left', hrows, feesSane_append_iff hbefore hafter]

/-- **A swap is described, with sane fees, iff the fee of its one pool fits.** -/
theorem describeSwap_sane_iff (h0 : 0 ≤ inputAmount receipt call) :
    (∃ d, describeSwap fl call sender receipt ctx viaRouter = .ok d ∧
        FeesSane (inputAmount receipt call) d.rows) ↔
      ∀ pool, swapPool call = some pool → ∀ feeBps, feeBpsOf pool ctx = some feeBps →
        ShareFits fl feeBps (inputAmount receipt call) := by
  rw [describeSwap_fees, swapPool, swapHops]
  -- rows without a fee are sane, and no pool is charged
  have hfree {rows : List DetailRow} (hrows : NoFee rows) :
      (∃ fees, (.ok rows : Except JsError (List DetailRow)) = .ok fees ∧
        FeesSane (inputAmount receipt call) fees) ↔
      ∀ pool, (none : Option Text) = some pool → ∀ feeBps, feeBpsOf pool ctx = some feeBps →
        ShareFits fl feeBps (inputAmount receipt call) :=
    iff_of_true ⟨rows, rfl, hrows.sane _⟩ fun pool h => by cases h
  cases hrouter : isCustodyRouter call with
  | true =>
    rw [if_pos rfl, if_pos rfl]
    match call.hops with
    | none => exact hfree (noFee_routeFees fl _ ctx)
    | some [] => exact hfree (noFee_routeFees fl _ ctx)
    | some (hop :: hop' :: hops) => exact hfree (noFee_routeFees fl _ ctx)
    | some [hop] =>
      have hrow : feeRows fl call [custodyHop ctx hop] (inputAmount receipt call)
          (some hop.tokenIn) ctx =
          feeRow fl (feeBpsOf hop.pool ctx) (inputAmount receipt call) (some hop.tokenIn) ctx := by
        rw [feeRows, customFamily, hrouter]
        rfl
      simp only [Option.some.injEq, forall_eq']
      rw [← feeRow_sane_iff h0 fun _ => Option.some_ne_none hop.tokenIn, ← hrow]
      rfl
  | false =>
    rw [if_neg Bool.false_ne_true, if_neg Bool.false_ne_true]
    have htoken : feeBpsOf call.contract ctx ≠ none → (poolHop ctx call).tokenIn ≠ none := by
      rw [poolHop, poolTokens, feeBpsOf]
      cases ctx.pools call.contract with
      | none => exact fun h => absurd rfl h
      | some p => exact fun _ => Option.some_ne_none _
    by_cases hid : call.interfaceId = "pool-custody"
    · have hrow : feeRows fl call [poolHop ctx call] (inputAmount receipt call)
          (poolHop ctx call).tokenIn ctx =
          feeRow fl (feeBpsOf call.contract ctx) (inputAmount receipt call)
            (poolHop ctx call).tokenIn ctx := by
        rw [feeRows, customFamily, hrouter, hid]
        rfl
      rw [if_pos hid]
      simp only [Option.some.injEq, forall_eq']
      rw [← feeRow_sane_iff h0 htoken, ← hrow]
      rfl
    · rw [if_neg hid]
      have hrow : feeRows fl call [poolHop ctx call] (inputAmount receipt call)
          (poolHop ctx call).tokenIn ctx = .ok [] := by
        rw [feeRows, customFamily, hrouter, decide_eq_false hid]
        rfl
      rw [← hfree noFee_nil, ← hrow]
      rfl

end Swap

/-! ## The input amount -/

theorem swapEvents_nonneg (receipt : Option Receipt) : ∀ e ∈ swapEvents receipt, 0 ≤ e.1 := by
  intro e he
  obtain ⟨ev, -, hev⟩ := List.mem_filterMap.mp he
  cases ev with
  | swap direction amountIn amountOut =>
    obtain rfl := Option.some.inj hev
    exact Int.natCast_nonneg amountIn
  | _ => cases hev

theorem argU_nonneg {call : DecodedCall} (h : WordArgs call) (name : Text) :
    0 ≤ argU call name := by
  rw [argU]
  cases hf : call.args.find? fun a => a.name = name with
  | none => exact le_refl 0
  | some a =>
    rw [Option.bind_some, h.value a (List.mem_of_find?_eq_some hf)]
    split_ifs
    · cases wordU128 a.word with
      | none => exact le_refl 0
      | some n => exact Int.natCast_nonneg n
    · exact le_refl 0

theorem inputAmount_nonneg {call : DecodedCall} (h : WordArgs call) (receipt : Option Receipt) :
    0 ≤ inputAmount receipt call := by
  rw [inputAmount]
  cases hs : swapEvents receipt with
  | nil => exact argU_nonneg h _
  | cons e events => exact swapEvents_nonneg receipt e (hs ▸ List.mem_cons_self)

/-! ## Every call -/

/-- **Every decoded call is described, with sane fees**, iff the fee of the pool it shows fits. -/
theorem describeDecodedCall_sane_iff {input : CallInput} {call : DecodedCall}
    (h : decodeContractCall input = .ok (some call)) {fl : FloatText} {sender : Text}
    {receipt : Option Receipt} {ctx : DecodeContext} :
    (∃ d, describeDecodedCall fl call sender receipt ctx = .ok d ∧
        FeesSane (inputAmount receipt (effective call)) d.rows) ↔ FeeFits fl call receipt ctx := by
  obtain ⟨words, hc, hcall⟩ := decodeContractCall_cases h
  have hw := isWord_of_calldataWords hc
  obtain ⟨hargs, heff⟩ := effective_of_decodes hw hcall
  have h0 := inputAmount_nonneg hargs receipt
  have hno {d : TxDescription} (hrows : NoFee d.rows) (hcharged : chargedPool call = none) :
      (∃ d', (.ok d : Except JsError TxDescription) = .ok d' ∧
        FeesSane (inputAmount receipt (effective call)) d'.rows) ↔ FeeFits fl call receipt ctx := by
    refine iff_of_true ⟨d, rfl, hrows.sane _⟩ fun pool hpool => ?_
    rw [hcharged] at hpool
    cases hpool
  rw [describeDecodedCall]
  cases hrouter : isCustodyRouter call with
  | true =>
    have hself : effective call = call := heff.resolve_right fun hledger => by
      rw [isCustodyRouter, hledger.1] at hrouter
      cases hrouter
    rw [if_pos rfl, FeeFits, chargedPool, hrouter, if_pos rfl, hself]
    exact describeSwap_sane_iff (hself ▸ h0)
  | false =>
    rw [if_neg Bool.false_ne_true]
    cases hswap : isSwap (effective call) with
    | true =>
      rw [if_pos rfl, FeeFits, chargedPool, hrouter, hswap, if_neg Bool.false_ne_true, if_pos rfl]
      exact describeSwap_sane_iff h0
    | false =>
      have hcharged : chargedPool call = none := by
        rw [chargedPool, hrouter, hswap]
        rfl
      rw [if_neg Bool.false_ne_true]
      cases isLiquidity (effective call) with
      | true => exact hno (noFee_liquidity _ sender receipt ctx) hcharged
      | false =>
        obtain ⟨d, hd, hrows⟩ := describeOther_total hw hcall hrouter sender receipt ctx
        rw [if_neg Bool.false_ne_true, hd]
        exact hno hrows hcharged

/-! ## A swap on one pool -/

def poolId : Text := List.replicate 64 'a'

def swapWords : List Text := [wordOf 0x10, wordOf 0, wordOf 1000000, wordOf 1, wordOf 0]

def swapInput : CallInput where
  contract := poolId
  calldata := .string ("0x" ++ swapWords.flatten)
  interfaceId := some "pool-custody"

def swapCall : DecodedCall where
  interfaceId := "pool-custody"
  contract := poolId
  fn := ⟨0x10, "swap"⟩
  args := argsFrom [u128 "direction" (some "0 = A to B, 1 = B to A"), u128 "amount_in",
    u128 "min_out", deadline] swapWords

/-- Subtraction without rounding, for fees that need none. -/
def exactFloatText : FloatText where
  percent _ := "0.30%"
  afterFeeBps
    | .finite q => .finite (10000 - q)
    | x => x
  rate _ _ _ _ := none

def poolContext (feeBps : ℚ) : DecodeContext :=
  { emptyDecodeContext with
    pools := fun id => if id = poolId then
      some ⟨List.replicate 64 'b', List.replicate 64 'c', some (.finite feeBps)⟩ else none }

set_option maxRecDepth 4000 in
theorem decode_swapInput : decodeContractCall swapInput = .ok (some swapCall) := rfl

/-- A fee of 30 basis points is described. -/
theorem describeDecodedCall_sane_thirty :
    (∃ d, describeDecodedCall exactFloatText swapCall "cd" none (poolContext 30) = .ok d ∧
        FeesSane (inputAmount none (effective swapCall)) d.rows) ↔
      FeeFits exactFloatText swapCall none (poolContext 30) :=
  describeDecodedCall_sane_iff decode_swapInput

/-- **A fee of 30.5 basis points is not.** -/
theorem halfPoint_not_described :
    decodeContractCall swapInput = .ok (some swapCall) ∧
      ¬ ∃ d, describeDecodedCall exactFloatText swapCall "cd" none (poolContext (61 / 2)) = .ok d ∧
        FeesSane (inputAmount none (effective swapCall)) d.rows := by
  refine ⟨decode_swapInput, fun h => ?_⟩
  have h0 : 0 ≤ inputAmount none swapCall := by decide +kernel
  obtain ⟨k, hk, -⟩ := (describeSwap_sane_iff h0).mp h poolId rfl (.finite (61 / 2)) rfl
  have hnone : (exactFloatText.afterFeeBps (.finite (61 / 2))).toInt? = none := by
    decide +kernel
  rw [hnone] at hk
  cases hk

end BoingObserver.Contract
