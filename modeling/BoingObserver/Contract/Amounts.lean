import BoingObserver.Contract.Describe
import Mathlib.Data.List.Nodup

/-!
# The amounts a description shows

`rendered d` lists what a description says about the amounts of its call: the
argument, and the raw units its row or its place in the headline names.
`AmountsShown` asks that each of these is the integer the argument's word
denotes.

The decoder has no value for a word from `2 ^ 128` on, and `argU` reads a missing
value as `0`: `amountsShown_iff` says that this is the only way a description
goes wrong, and that it always does.
-/

namespace BoingObserver.Contract

open Js

/-! ## What a description shows -/

/-- What a segment shows of an amount: the raw units of its title, or that it is unlimited. -/
def displayed (kind : DescriptionKind) : Segment → Option Text
  | .amount _ title => title
  | .text s => if kind = .approve ∧ s = "unlimited " then some "unlimited" else none
  | _ => none

def rowArguments : DescriptionKind → List (Text × Text)
  | .approve => [("Allowance", "amount")]
  | .transfer => [("Amount", "amount")]
  | .transferFrom => [("Amount", "amount")]
  | .mint => [("Amount", "amount")]
  | .swap => [("Sold", "amount_in"), ("Minimum out", "min_out")]
  | .addLiquidity =>
    [("Deposited A", "amount_a"), ("Deposited B", "amount_b"), ("Minimum LP", "min_liquidity")]
  | .removeLiquidity =>
    [("LP burned", "liquidity"), ("Minimum A", "min_a"), ("Minimum B", "min_b")]
  | .vaultDeposit =>
    [("Offered A", "amount_a"), ("Offered B", "amount_b"), ("Minimum shares", "min_shares")]
  | .vaultWithdraw =>
    [("Shares burned", "shares"), ("Minimum A", "min_a"), ("Minimum B", "min_b")]
  | .vaultTransferShares => [("Shares", "amount")]
  | .call => []

/-- The argument a row shows; the rows of an unknown call are labelled by theirs. -/
def rowArgument (kind : DescriptionKind) (label : Text) : Option Text :=
  if kind = .call then some label else (rowArguments kind).lookup label

/-- The arguments of the amounts in the headline, in order. -/
def headlineArguments : DescriptionKind → List Text
  | .swap => ["amount_in", "min_out"]
  | .addLiquidity => ["amount_a", "amount_b"]
  | .removeLiquidity => ["liquidity"]
  | .vaultDeposit => ["amount_a", "amount_b"]
  | .vaultWithdraw => ["shares"]
  | .call => []
  | _ => ["amount"]

def rowAmounts (kind : DescriptionKind) (row : DetailRow) : List (Text × Text) :=
  match rowArgument kind row.label with
  | none => []
  | some name => (row.value.filterMap (displayed kind)).map (Prod.mk name)

/-- Every amount of an argument the description shows, with the argument's name. -/
def rendered (d : TxDescription) : List (Text × Text) :=
  d.rows.flatMap (rowAmounts d.kind) ++
    (headlineArguments d.kind).zip (d.headline.filterMap (displayed d.kind))

/-- The text says the integer `n`, or calls it unlimited where it is the largest `u128`. -/
def Says (shown : Text) (n : ℕ) : Prop :=
  shown = rawUnits n ∨ (shown = "unlimited" ∧ n = 2 ^ 128 - 1)

/-- **Amount shown equals amount signed**: every amount shown for an argument is the integer of
the argument's calldata word. -/
def AmountsShown (call : DecodedCall) (d : TxDescription) : Prop :=
  ∀ p ∈ rendered d, ∀ a ∈ (effective call).args, a.name = p.1 → Says p.2 (wordValue a.word)

/-! ## The arguments each function shows -/

/-- What `describeVault` shows, by function name. -/
def vaultArguments (name : Text) : List Text :=
  if name = "deposit" then ["amount_a", "amount_b", "min_shares"]
  else if name = "withdraw" then ["shares", "min_a", "min_b"]
  else if name = "transfer_shares" then ["amount"]
  else []

/-- What `describeToken` shows, by function name. -/
def tokenArguments (name : Text) : List Text :=
  if name ∈ (["approve", "transfer", "transfer_from", "mint_first"] : List Text) then ["amount"]
  else []

/-- The arguments of a call that its description shows as amounts. -/
def amountArguments (call : DecodedCall) : List Text :=
  if isCustodyRouter call || isSwap (effective call) then ["amount_in", "min_out"]
  else if isLiquidity (effective call) then
    if (effective call).fn.name = "add_liquidity" then ["amount_a", "amount_b", "min_liquidity"]
    else ["liquidity", "min_a", "min_b"]
  else if call.interfaceId = "lp-vault-v2" then vaultArguments call.fn.name
  else if call.interfaceId ∈ fungibleIfaces then tokenArguments call.fn.name
  else []

/-- The text a description has for an amount: an allowance of `2 ^ 128 - 1` is unlimited. -/
def shownText (kind : DescriptionKind) (raw : ℤ) : Text :=
  if kind = .approve ∧ raw = maxU128 then "unlimited" else rawUnits raw

/-- The description shows the arguments `names` of the call, as `argU` reads them. -/
def ShowsArguments (call : DecodedCall) (names : List Text) (d : TxDescription) : Prop :=
  ∀ p, p ∈ rendered d ↔ ∃ name ∈ names, p = (name, shownText d.kind (argU call name))

/-! ## Segments and rows -/

/-- What a description shows that shows the arguments as `argU` reads them. -/
def readings (call : DecodedCall) (names : List Text) : List (Text × Text) :=
  names.map fun name => (name, rawUnits (argU call name))

theorem displayed_amountTok (kind : DescriptionKind) (raw : ℤ) (token : Text)
    (ctx : DecodeContext) : (amountTok raw token ctx).filterMap (displayed kind) =
      [rawUnits raw] := by
  cases kind <;> rfl

theorem displayed_amountSegs (kind : DescriptionKind) (raw : ℤ) (token : Option Text)
    (ctx : DecodeContext) : (amountSegs raw token ctx).filterMap (displayed kind) =
      [rawUnits raw] := by
  cases token with
  | none => cases kind <;> rfl
  | some token => exact displayed_amountTok kind raw token ctx

theorem rendered_deposit (call : DecodedCall) (sender : Text) (ctx : DecodeContext) :
    rendered (describeDeposit call sender none ctx) =
      readings call ["amount_a", "amount_b", "min_shares", "amount_a", "amount_b"] := by
  rw [describeDeposit, vaultRows]
  generalize vaultTokens call.contract ctx = tk
  generalize nonEmpty ((ctx.vaults call.contract).map (·.pool)) = pool
  cases tk <;> cases pool <;> rfl

theorem rendered_withdraw (call : DecodedCall) (sender : Text) (ctx : DecodeContext) :
    rendered (describeWithdraw call sender none ctx) =
      readings call ["shares", "min_a", "min_b", "shares"] := by
  rw [describeWithdraw, vaultRows]
  generalize vaultTokens call.contract ctx = tk
  generalize nonEmpty ((ctx.vaults call.contract).map (·.pool)) = pool
  cases tk <;> cases pool <;> rfl

theorem rendered_transferShares (call : DecodedCall) (sender : Text) (ctx : DecodeContext) :
    rendered (describeTransferShares call sender none ctx) =
      readings call ["amount", "amount"] := by
  rw [describeTransferShares, vaultRows, accountRow]
  generalize vaultTokens call.contract ctx = tk
  generalize nonEmpty ((ctx.vaults call.contract).map (·.pool)) = pool
  generalize nonEmpty (argAcct call "to") = dest
  cases tk <;> cases pool <;> cases dest <;> rfl

theorem rendered_addLiquidity (call : DecodedCall) (sender : Text) (ctx : DecodeContext)
    (tk : Option (Text × Text)) (value : List Segment) :
    rendered (describeAddLiquidity call sender none ctx tk ⟨"Pool", value⟩) =
      readings call ["amount_a", "amount_b", "min_liquidity", "amount_a", "amount_b"] := by
  cases tk <;> rfl

theorem rendered_removeLiquidity (call : DecodedCall) (sender : Text) (ctx : DecodeContext)
    (tk : Option (Text × Text)) (value : List Segment) :
    rendered (describeRemoveLiquidity call sender none ctx tk ⟨"Pool", value⟩) =
      readings call ["liquidity", "min_a", "min_b", "liquidity"] := by
  rw [describeRemoveLiquidity, accountRow, accountRow]
  generalize nonEmpty (argAcct call "recipient_a") = ra
  generalize nonEmpty (argAcct call "recipient_b") = rb
  cases tk <;> cases ra <;> cases rb <;> rfl

theorem acctOrThrow_eq_ok {id : Option Text} {ctx : DecodeContext} {seg : Segment}
    (h : acctOrThrow id ctx = .ok seg) : ∃ id text, seg = .account id text .account := by
  cases id with
  | some id => exact ⟨_, _, (Except.ok.inj h).symm⟩
  | none =>
    rw [acctOrThrow] at h
    cases hl : ctx.labels "null" with
    | some label =>
      rw [hl] at h
      exact ⟨_, _, (Except.ok.inj h).symm⟩
    | none => rw [hl] at h; cases h

section Tokens

variable {call : DecodedCall} {sender : Text} {ctx : DecodeContext} {d : TxDescription}

theorem rendered_approve (h : describeApprove call sender none ctx = .ok d) :
    d.kind = .approve ∧
      rendered d =
        List.replicate 2 (("amount" : Text), shownText .approve (argU call "amount")) := by
  obtain ⟨spender, hs, h⟩ := bind_eq_ok h
  obtain ⟨id, text, rfl⟩ := acctOrThrow_eq_ok hs
  obtain rfl := Except.ok.inj h
  refine ⟨rfl, ?_⟩
  rw [shownText]
  generalize argU call "amount" = amount
  by_cases hm : amount = maxU128
  · subst hm
    rfl
  · simp only [hm, and_false, if_false]
    rfl

theorem rendered_transfer (h : describeTransfer call sender none ctx = .ok d) :
    d.kind = .transfer ∧ rendered d = readings call ["amount", "amount"] := by
  obtain ⟨dest, hd, h⟩ := bind_eq_ok h
  obtain ⟨id, text, rfl⟩ := acctOrThrow_eq_ok hd
  obtain rfl := Except.ok.inj h
  exact ⟨rfl, rfl⟩

theorem rendered_transferFrom (h : describeTransferFrom call sender none ctx = .ok d) :
    d.kind = .transferFrom ∧ rendered d = readings call ["amount", "amount"] := by
  obtain ⟨owner, ho, h⟩ := bind_eq_ok h
  obtain ⟨id, text, rfl⟩ := acctOrThrow_eq_ok ho
  obtain ⟨dest, hd, h⟩ := bind_eq_ok h
  obtain ⟨id', text', rfl⟩ := acctOrThrow_eq_ok hd
  obtain rfl := Except.ok.inj h
  exact ⟨rfl, rfl⟩

theorem rendered_mint (h : describeMint call sender none ctx = .ok d) :
    d.kind = .mint ∧ rendered d = readings call ["amount", "amount"] := by
  obtain ⟨dest, hd, h⟩ := bind_eq_ok h
  obtain ⟨id, text, rfl⟩ := acctOrThrow_eq_ok hd
  obtain rfl := Except.ok.inj h
  exact ⟨rfl, rfl⟩

end Tokens

/-! ## Swaps -/

theorem rowAmounts_feeRow {fl : FloatText} {feeBps : Option Number} {amount : ℤ}
    {tokenIn : Option Text} {ctx : DecodeContext} {rows : List DetailRow}
    (h : feeRow fl feeBps amount tokenIn ctx = .ok rows) :
    rows.flatMap (rowAmounts .swap) = [] := by
  unfold feeRow at h
  split at h
  · obtain rfl := Except.ok.inj h
    rfl
  · split at h
    · obtain rfl := Except.ok.inj h
      rfl
    · split at h
      · cases h
      · obtain rfl := Except.ok.inj h
        rfl

theorem rowAmounts_routeFees (fl : FloatText) (hops : List Hop) (ctx : DecodeContext) :
    (routeFees fl hops ctx).flatMap (rowAmounts .swap) = [] := by
  rw [routeFees]
  split
  · split_ifs <;> rfl
  · rfl

theorem rowAmounts_feeRows {fl : FloatText} {call : DecodedCall} {hops : List Hop} {actualIn : ℤ}
    {tokenIn : Option Text} {ctx : DecodeContext} {fees : List DetailRow}
    (h : feeRows fl call hops actualIn tokenIn ctx = .ok fees) :
    fees.flatMap (rowAmounts .swap) = [] := by
  unfold feeRows at h
  split at h
  · split_ifs at h
    · exact rowAmounts_feeRow h
    · obtain rfl := Except.ok.inj h
      rfl
  · obtain rfl := Except.ok.inj h
    exact rowAmounts_routeFees fl _ ctx

theorem rowAmounts_routeRow (hops : List Hop) (ctx : DecodeContext) :
    rowAmounts .swap (routeRow hops ctx) = [] := by
  rw [routeRow]
  split_ifs <;> rfl

theorem rowAmounts_routerRows (router : Option DecodedCall) (ctx : DecodeContext) :
    (routerRows router ctx).flatMap (rowAmounts .swap) = [] := by
  cases router <;> rfl

theorem rowAmounts_deadlineRows (deadline : ℤ) :
    (deadlineRows deadline).flatMap (rowAmounts .swap) = [] := by
  rw [deadlineRows]
  split_ifs <;> rfl

theorem rowAmounts_eq_nil {kind : DescriptionKind} {row : DetailRow}
    (h : rowArgument kind row.label = none) : rowAmounts kind row = [] := by
  rw [rowAmounts, h]

theorem rowAmounts_recipientRow (recipient : Option Text) (ctx : DecodeContext) :
    rowAmounts .swap (recipientRow recipient ctx) = [] :=
  rowAmounts_eq_nil rfl

theorem displayed_towards (recipient : Option Text) (sender : Text) (ctx : DecodeContext) :
    (towards recipient sender ctx).filterMap (displayed .swap) = [] := by
  unfold towards
  split
  · split_ifs <;> rfl
  · rfl

theorem displayed_swapHeadline {inSegs minSegs : List Segment} {inText minText : Text}
    (hin : inSegs.filterMap (displayed .swap) = [inText])
    (hmin : minSegs.filterMap (displayed .swap) = [minText]) :
    (swapHeadline none inSegs minSegs none).filterMap (displayed .swap) = [inText, minText] := by
  have h : swapHeadline none inSegs minSegs none =
      [txt "Swap "] ++ inSegs ++ [txt " for at least "] ++ minSegs := rfl
  rw [h, List.filterMap_append, List.filterMap_append, List.filterMap_append, hin, hmin]
  rfl

theorem rowAmounts_of_label (kind : DescriptionKind) (label : Text) {name text : Text}
    {value : List Segment} (hl : rowArgument kind label = some name)
    (hv : value.filterMap (displayed kind) = [text]) :
    rowAmounts kind ⟨label, value⟩ = [(name, text)] := by
  simp only [rowAmounts, hl, hv, List.map_cons, List.map_nil]

theorem rendered_swap {fl : FloatText} {call : DecodedCall} {sender : Text} {ctx : DecodeContext}
    {viaRouter : Option DecodedCall} {d : TxDescription}
    (h : describeSwap fl call sender none ctx viaRouter = .ok d) :
    d.kind = .swap ∧
      rendered d = readings call ["amount_in", "min_out", "amount_in", "min_out"] := by
  rw [describeSwap] at h
  obtain ⟨fees, hf, h⟩ := bind_eq_ok h
  obtain rfl := Except.ok.inj h
  refine ⟨rfl, ?_⟩
  have hin := displayed_amountSegs .swap (argU call "amount_in")
    (nonEmpty ((swapHops ctx call).head?.bind (·.tokenIn))) ctx
  have hmin := displayed_amountSegs .swap (argU call "min_out")
    (nonEmpty ((swapHops ctx call).getLast?.bind (·.tokenOut))) ctx
  have hsold := rowAmounts_of_label .swap "Sold" rfl hin
  have hmin' := rowAmounts_of_label .swap "Minimum out" rfl hmin
  simp only [rendered, List.flatMap_append, List.flatMap_cons, List.flatMap_nil,
    rowAmounts_feeRows hf, rowAmounts_routeRow, rowAmounts_routerRows, rowAmounts_deadlineRows,
    List.filterMap_append, displayed_towards, displayed_swapHeadline hin hmin, hsold,
    silent_none.amountOut, silent_none.isOk, Option.map_none, Bool.false_eq_true, if_false, hmin',
    rowAmounts_recipientRow]
  rfl

/-! ## Other calls -/

theorem rendered_generic {call : DecodedCall} {sender : Text} {ctx : DecodeContext}
    {p : Text × Text} (h : p ∈ rendered (describeGeneric call sender none ctx)) :
    ∃ a ∈ call.args, ∃ v, a.value = some v ∧ p = (a.name, rawUnits v) := by
  have hr : rendered (describeGeneric call sender none ctx) =
      (call.args.filterMap (argumentRow ctx)).flatMap (rowAmounts .call) := by
    have hhead : ([⟨"Contract", [acctSeg call.contract ctx .contract]⟩,
        ⟨"Function", [txt (call.fn.name ++ " (selector 0x" ++ padHex 2 call.fn.selector ++ ")")]⟩] :
          List DetailRow).flatMap (rowAmounts .call) = [] := rfl
    have hsigner : ([⟨"Signer", [acctSeg sender ctx]⟩] : List DetailRow).flatMap
        (rowAmounts .call) = [] := rfl
    rw [rendered, describeGeneric, List.flatMap_append, List.flatMap_append, hhead, hsigner,
      headlineArguments, List.zip_nil_left, List.append_nil, List.append_nil, List.nil_append]
  rw [hr] at h
  obtain ⟨row, hrow, hp⟩ := List.mem_flatMap.mp h
  obtain ⟨a, ha, hrow⟩ := List.mem_filterMap.mp hrow
  refine ⟨a, ha, ?_⟩
  rw [argumentRow] at hrow
  split at hrow
  · obtain rfl := Option.some.inj hrow
    cases hp
  · rename_i v _ hv
    obtain rfl := Option.some.inj hrow
    exact ⟨v, hv, List.mem_singleton.mp hp⟩
  · cases hrow

/-! ## The arguments of a decoded call -/

def amountNames : List Text :=
  ["amount", "amount_in", "min_out", "amount_a", "amount_b", "min_liquidity", "liquidity",
    "min_a", "min_b", "min_shares", "shares"]

theorem isNumeric_of_amountName : ∀ e ∈ contractInterfaces, ∀ f ∈ e.2.functions, ∀ p ∈ f.params,
    p.name ∈ amountNames → p.type.isNumeric = true := by
  decide

/-- Arguments read off words: distinct names, and values as `argFrom` gives them. -/
structure WordArgs (call : DecodedCall) : Prop where
  nodup : (call.args.map (·.name)).Nodup
  isWord : ∀ a ∈ call.args, IsWord a.word
  value : ∀ a ∈ call.args, a.value =
    if a.type.isNumeric then (wordU128 a.word).map Int.ofNat else none
  numeric : ∀ a ∈ call.args, a.name ∈ amountNames → a.type.isNumeric = true

theorem map_name_argsFrom {params : List AbiParam} {words : List Text}
    (h : params.length ≤ words.tail.length) :
    (argsFrom params words).map (·.name) = params.map (·.name) := by
  have hz : ∀ (ps : List AbiParam) (ws : List Text), ps.length ≤ ws.length →
      (List.zipWith (fun p w => argFrom p.name p.type w) ps ws).map (·.name) =
        ps.map (·.name) := by
    intro ps
    induction ps with
    | nil => intro ws _; rfl
    | cons p ps ih =>
      intro ws hlen
      cases ws with
      | nil => simp at hlen
      | cons w ws =>
        rw [List.zipWith_cons_cons, List.map_cons, ih ws (by simpa using hlen), List.map_cons]
        rfl
  exact hz params words.tail h

theorem wordArgs_of_argsFrom {call : DecodedCall} {words : List Text}
    (hw : ∀ w ∈ words, IsWord w) {e : Text × ContractInterface} (he : e ∈ contractInterfaces)
    {f : ContractFunction} (hf : f ∈ e.2.functions) (hlen : f.params.length ≤ words.tail.length)
    (hargs : call.args = argsFrom f.params words) : WordArgs call where
  nodup := by
    rw [hargs, map_name_argsFrom hlen]
    exact params_nodup e he f hf
  isWord a ha := by
    obtain ⟨p, -, w, hm, rfl⟩ := mem_argsFrom (hargs ▸ ha)
    exact hw w hm
  value a ha := by
    obtain ⟨p, -, w, -, rfl⟩ := mem_argsFrom (hargs ▸ ha)
    rfl
  numeric a ha hn := by
    obtain ⟨p, hp, w, -, rfl⟩ := mem_argsFrom (hargs ▸ ha)
    exact isNumeric_of_amountName e he f hf p hp hn

theorem wordArgs_of_calls {id contract : Text} {words : List Text} (hw : ∀ w ∈ words, IsWord w)
    {e : Text × ContractInterface} (he : e ∈ contractInterfaces) {f : ContractFunction}
    (hf : f ∈ e.2.functions) (hc : calls words f = true) :
    WordArgs (TableCall id contract f words) := by
  simp only [calls, decide_eq_true_eq] at hc
  exact wordArgs_of_argsFrom hw he hf (by rw [List.length_tail]; omega) rfl

/-- What a decoded call is about was read off words; only a ledger-router call is about another. -/
theorem effective_of_decodes {contract : Text} {words : List Text} (hw : ∀ w ∈ words, IsWord w)
    {call : DecodedCall} (h : Decodes contract words call) :
    WordArgs (effective call) ∧ (effective call = call ∨
      call.interfaceId = "ledger-router" ∧ ∀ a ∈ call.args, a.value = none) := by
  cases h with
  | table hid hf hc =>
    exact ⟨wordArgs_of_calls hw (mem_of_lookup_eq_some hid) hf hc, Or.inl rfl⟩
  | custodyRouter hd =>
    obtain ⟨n, hops, -, hn, -, hlen, -, rfl⟩ := decodeCustodyRouter_eq_some hd
    refine ⟨wordArgs_of_argsFrom (e := ("custody-router", custodyRouterInterface)) hw
      (by simp [contractInterfaces]) List.mem_cons_self ?_ rfl, Or.inl rfl⟩
    rw [List.length_tail, hlen]
    exact le_trans (show 5 ≤ 8 by omega) (by omega)
  | ledgerRouter hid hc =>
    have hw' : ∀ w ∈ words.drop 2, IsWord w := fun w hm => hw w (List.mem_of_mem_drop hm)
    refine ⟨?_, Or.inr ⟨rfl, fun a ha => ?_⟩⟩
    · rcases hid with ⟨-, hf⟩ | ⟨-, hf⟩
      · exact wordArgs_of_calls hw' (e := ("pool-custody", poolCustodyInterface))
          (by simp [contractInterfaces]) hf hc
      · exact wordArgs_of_calls hw' (e := ("pool-ledger", poolLedgerInterface))
          (by simp [contractInterfaces]) hf hc
    · rw [List.mem_singleton.mp ha]
      rfl

theorem find?_name_of_mem {args : List DecodedArg} (hnodup : (args.map (·.name)).Nodup)
    {a : DecodedArg} (ha : a ∈ args) : (args.find? fun b => b.name = a.name) = some a := by
  obtain ⟨b, hb⟩ := Option.isSome_iff_exists.mp (List.find?_isSome
    (p := fun b : DecodedArg => decide (b.name = a.name)).mpr ⟨a, ha, decide_eq_true rfl⟩)
  have hname : b.name = a.name := by simpa using List.find?_some hb
  obtain rfl := List.inj_on_of_nodup_map hnodup (List.mem_of_find?_eq_some hb) ha hname
  exact hb

theorem argU_of_mem {call : DecodedCall} (h : WordArgs call) {a : DecodedArg} (ha : a ∈ call.args) :
    argU call a.name = a.value.getD 0 := by
  rw [argU, find?_name_of_mem h.nodup ha]
  rfl

theorem argU_of_lt {call : DecodedCall} (h : WordArgs call) {a : DecodedArg} (ha : a ∈ call.args)
    (hn : a.name ∈ amountNames) (hlt : wordValue a.word < 2 ^ 128) :
    argU call a.name = wordValue a.word := by
  rw [argU_of_mem h ha, h.value a ha, if_pos (h.numeric a ha hn),
    wordU128_of_lt (h.isWord a ha) hlt]
  rfl

/-- The lookup reads a word from `2 ^ 128` on as zero. -/
theorem argU_of_ge {call : DecodedCall} (h : WordArgs call) {a : DecodedArg} (ha : a ∈ call.args)
    (hge : 2 ^ 128 ≤ wordValue a.word) : argU call a.name = 0 := by
  rw [argU_of_mem h ha, h.value a ha, (wordU128_eq_none_iff (h.isWord a ha)).mpr hge]
  split_ifs <;> rfl

/-! ## What is shown -/

theorem shows_of_readings {call : DecodedCall} {names shown : List Text} {d : TxDescription}
    (kind : DescriptionKind) (hk : d.kind = kind) (hne : kind ≠ .approve)
    (hr : rendered d = readings call shown)
    (hn : (∀ name ∈ shown, name ∈ names) ∧ ∀ name ∈ names, name ∈ shown) :
    ShowsArguments call names d := by
  intro p
  have htext : ∀ raw, shownText d.kind raw = rawUnits raw :=
    fun raw => if_neg fun h => hne (hk ▸ h.1)
  have hmem : ∀ name, name ∈ shown ↔ name ∈ names := fun name => ⟨hn.1 name, hn.2 name⟩
  simp only [hr, readings, List.mem_map, hmem, htext, eq_comm (a := p)]

theorem shows_token {call : DecodedCall} {sender : Text} {ctx : DecodeContext} {d : TxDescription}
    (h : describeToken call sender none ctx = .ok (some d)) :
    ShowsArguments call (tokenArguments call.fn.name) d := by
  rw [describeToken] at h
  split_ifs at h with h1 h2 h3 h4
  · obtain ⟨hk, hr⟩ := rendered_approve (map_some_eq_ok h)
    intro p
    have hnames : tokenArguments call.fn.name = ["amount"] := by
      rw [h1]
      rfl
    rw [hr, hnames, hk]
    simp
  · obtain ⟨hk, hr⟩ := rendered_transfer (map_some_eq_ok h)
    exact shows_of_readings _ hk (by decide) hr (by rw [h2]; decide)
  · obtain ⟨hk, hr⟩ := rendered_transferFrom (map_some_eq_ok h)
    exact shows_of_readings _ hk (by decide) hr (by rw [h3]; decide)
  · obtain ⟨hk, hr⟩ := rendered_mint (map_some_eq_ok h)
    exact shows_of_readings _ hk (by decide) hr (by rw [h4]; decide)
  · cases h

theorem tokenArguments_of_none {call : DecodedCall} {sender : Text} {ctx : DecodeContext}
    (h : describeToken call sender none ctx = .ok none) : tokenArguments call.fn.name = [] := by
  have hne : ∀ {x : Except JsError TxDescription}, some <$> x = .ok none → False := by
    intro x hx
    cases x <;> cases hx
  rw [describeToken] at h
  split_ifs at h with h1 h2 h3 h4
  · exact (hne h).elim
  · exact (hne h).elim
  · exact (hne h).elim
  · exact (hne h).elim
  · rw [tokenArguments, if_neg]
    simp only [List.mem_cons, List.not_mem_nil, or_false, not_or]
    exact ⟨h1, h2, h3, h4⟩

theorem shows_vault {call : DecodedCall} {sender : Text} {ctx : DecodeContext} {d : TxDescription}
    (h : describeVault call sender none ctx = some d) :
    ShowsArguments call (vaultArguments call.fn.name) d := by
  rw [describeVault] at h
  rw [vaultArguments]
  split_ifs at h ⊢ with h1 h2 h3
  · obtain rfl := Option.some.inj h
    exact shows_of_readings .vaultDeposit rfl (by decide) (rendered_deposit _ _ _)
      (by decide)
  · obtain rfl := Option.some.inj h
    exact shows_of_readings .vaultWithdraw rfl (by decide) (rendered_withdraw _ _ _)
      (by decide)
  · obtain rfl := Option.some.inj h
    exact shows_of_readings .vaultTransferShares rfl (by decide)
      (rendered_transferShares _ _ _) (by decide)

theorem vaultArguments_of_none {call : DecodedCall} {sender : Text} {ctx : DecodeContext}
    (h : describeVault call sender none ctx = none) : vaultArguments call.fn.name = [] := by
  rw [describeVault] at h
  rw [vaultArguments]
  split_ifs at h ⊢
  rfl

theorem shows_liquidity (call : DecodedCall) (sender : Text) (ctx : DecodeContext) :
    ShowsArguments call (if call.fn.name = "add_liquidity" then
      ["amount_a", "amount_b", "min_liquidity"] else ["liquidity", "min_a", "min_b"])
      (describeLiquidity call sender none ctx) := by
  rw [describeLiquidity]
  split_ifs
  · exact shows_of_readings .addLiquidity rfl (by decide)
      (rendered_addLiquidity _ _ _ _ _) (by decide)
  · exact shows_of_readings .removeLiquidity rfl (by decide)
      (rendered_removeLiquidity _ _ _ _ _) (by decide)

/-- **A description shows the amount arguments of its call as `argU` reads them**, or it is the
generic one, which shows none. -/
theorem describe_shows {words : List Text} {contract : Text} (hw : ∀ w ∈ words, IsWord w)
    {call : DecodedCall} (hcall : Decodes contract words call) {fl : FloatText} {sender : Text}
    {ctx : DecodeContext} {d : TxDescription}
    (h : describeDecodedCall fl call sender none ctx = .ok d) :
    ShowsArguments (effective call) (amountArguments call) d ∨
      amountArguments call = [] ∧ d = describeGeneric call sender none ctx := by
  have heff : call.interfaceId ≠ "ledger-router" → effective call = call := fun hne =>
    (effective_of_decodes hw hcall).2.resolve_right fun h => hne h.1
  rw [amountArguments]
  rcases describeDecodedCall_eq_ok h with ⟨hc, hd⟩ | ⟨hc, hs, v, hd⟩ | ⟨hc, hs, hl, rfl⟩ |
    ⟨hc, hs, hl, hd⟩
  · left
    have hid : call.interfaceId = "custody-router" := of_decide_eq_true hc
    rw [heff (by rw [hid]; decide), hc, if_pos (Bool.true_or _)]
    obtain ⟨hk, hr⟩ := rendered_swap hd
    exact shows_of_readings _ hk (by decide) hr (by decide)
  · left
    rw [hc, hs, if_pos (Bool.or_true _)]
    obtain ⟨hk, hr⟩ := rendered_swap hd
    exact shows_of_readings _ hk (by decide) hr (by decide)
  · left
    rw [hc, hs, hl]
    exact shows_liquidity _ _ _
  · simp only [hc, hs, hl, Bool.or_self, Bool.false_eq_true, if_false]
    rcases describeOther_eq_ok hd with ⟨hid, hv⟩ | ⟨hv, hfun⟩
    · left
      rw [heff (by rw [hid]; decide), if_pos hid]
      exact shows_vault hv
    rcases describeFungible_eq_ok hfun with ⟨hid, ht⟩ | ⟨ht, rfl⟩
    · left
      have hne : call.interfaceId ≠ "ledger-router" := by
        intro e
        rw [e] at hid
        exact absurd hid (by decide)
      have hnv : call.interfaceId ≠ "lp-vault-v2" := by
        intro e
        rw [e] at hid
        exact absurd hid (by decide)
      rw [heff hne, if_neg hnv, if_pos hid]
      exact shows_token ht
    · right
      refine ⟨?_, rfl⟩
      by_cases hid : call.interfaceId = "lp-vault-v2"
      · rw [if_pos hid]
        exact vaultArguments_of_none (hv hid)
      by_cases hf : call.interfaceId ∈ fungibleIfaces
      · rw [if_neg hid, if_pos hf]
        exact tokenArguments_of_none (ht hf)
      · rw [if_neg hid, if_neg hf]

theorem amountArguments_subset (call : DecodedCall) :
    ∀ name ∈ amountArguments call, name ∈ amountNames := by
  rw [amountArguments, vaultArguments, tokenArguments]
  split_ifs <;> decide

theorem value_eq_wordValue {call : DecodedCall} (h : WordArgs call) {a : DecodedArg}
    (ha : a ∈ call.args) {v : ℤ} (hv : a.value = some v) : v = wordValue a.word := by
  rw [h.value a ha] at hv
  split_ifs at hv
  obtain ⟨n, hn, rfl⟩ := Option.map_eq_some_iff.mp hv
  exact congrArg Int.ofNat (wordU128_eq_some_iff.mp hn).2.2.symm

/-- What is shown of an amount that was read right. -/
theorem says_shownText (kind : DescriptionKind) (n : ℕ) : Says (shownText kind n) n := by
  rw [shownText]
  split_ifs with h
  · refine Or.inr ⟨rfl, ?_⟩
    have hm := h.2
    rw [maxU128] at hm
    omega
  · exact Or.inl rfl

theorem eq_zero_of_says_zero {kind : DescriptionKind} {n : ℕ} (h : Says (shownText kind 0) n) :
    n = 0 := by
  rw [shownText, if_neg (fun h => absurd h.2 (by decide))] at h
  rcases h with h | ⟨h, -⟩
  · exact ((rawUnits_natCast_inj (m := 0)).mp h).symm
  · exact absurd h (by decide)

/-! ## When the amounts are right -/

/-- The calldata of an approval for the account `1`, with its amount word. -/
def approvalInput (amount : Text) : CallInput where
  contract := "ab"
  calldata := .string ("0x" ++ (wordOf 8 ++ (wordOf 1 ++ amount)))
  interfaceId := some "fungible-v2"

def approval (amount : Text) : DecodedCall where
  interfaceId := "fungible-v2"
  contract := "ab"
  fn := ⟨8, "approve"⟩
  args := argsFrom [acct "spender", u128 "amount"] [wordOf 8, wordOf 1, amount]

/-- The word of `2 ^ 255`. -/
def hugeWord : Text := '8' :: List.replicate 63 '0'

/-- **Amounts are shown right exactly when no amount argument's word is out of range.** -/
theorem amountsShown_iff {input : CallInput} {call : DecodedCall}
    (h : decodeContractCall input = .ok (some call)) {fl : FloatText} {sender : Text}
    {ctx : DecodeContext} {d : TxDescription}
    (hd : describeDecodedCall fl call sender none ctx = .ok d) :
    AmountsShown call d ↔ ∀ a ∈ (effective call).args, a.name ∈ amountArguments call →
      wordValue a.word < 2 ^ 128 := by
  obtain ⟨words, hc, hcall⟩ := decodeContractCall_cases h
  have hw := isWord_of_calldataWords hc
  obtain ⟨hargs, heff⟩ := effective_of_decodes hw hcall
  rcases describe_shows hw hcall hd with hshow | ⟨hnone, rfl⟩
  · constructor
    · intro hall a ha hn
      by_contra hge
      have hsays := hall _ ((hshow _).mpr ⟨a.name, hn, rfl⟩) a ha rfl
      rw [argU_of_ge hargs ha (not_lt.mp hge)] at hsays
      have := eq_zero_of_says_zero hsays
      omega
    · intro hlt p hp a ha hname
      obtain ⟨name, hn, rfl⟩ := (hshow p).mp hp
      obtain rfl : a.name = name := hname
      rw [argU_of_lt hargs ha (amountArguments_subset call _ hn) (hlt a ha hn)]
      exact says_shownText d.kind _
  · rw [hnone]
    refine iff_of_true ?_ (fun a _ hn => by cases hn)
    intro p hp a ha hname
    obtain ⟨b, hb, v, hv, rfl⟩ := rendered_generic hp
    rcases heff with heff | ⟨-, hnov⟩
    · rw [← heff] at hb
      obtain rfl := List.inj_on_of_nodup_map hargs.nodup ha hb hname
      rw [value_eq_wordValue hargs ha hv]
      exact Or.inl rfl
    · rw [hnov b hb] at hv
      cases hv

theorem exists_ok_of_isOk {α : Type} {x : Except JsError α} (h : x.isOk = true) :
    ∃ a, x = .ok a := by
  cases x with
  | error e => cases h
  | ok a => exact ⟨a, rfl⟩

theorem describe_approval (amount : Text) :
    ∃ d, describeDecodedCall noFloatText (approval amount) "cd" none emptyDecodeContext = .ok d :=
  exists_ok_of_isOk (by rfl)

set_option maxRecDepth 4000 in
/-- An approval in range, shown right. -/
theorem amountsShown_iff_approve :
    ∃ d, describeDecodedCall noFloatText (approval (wordOf 7)) "cd" none emptyDecodeContext =
        .ok d ∧
      (AmountsShown (approval (wordOf 7)) d ↔
        ∀ a ∈ (effective (approval (wordOf 7))).args,
          a.name ∈ amountArguments (approval (wordOf 7)) → wordValue a.word < 2 ^ 128) := by
  obtain ⟨d, hd⟩ := describe_approval (wordOf 7)
  have hdecode : decodeContractCall (approvalInput (wordOf 7)) =
    .ok (some (approval (wordOf 7))) := rfl
  exact ⟨d, hd, amountsShown_iff hdecode hd⟩

set_option maxRecDepth 4000 in
/-- **An allowance of `2 ^ 255` is shown as zero.** -/
theorem hugeApproval_shown_zero :
    ∃ d, decodeContractCall (approvalInput hugeWord) = .ok (some (approval hugeWord)) ∧
      describeDecodedCall noFloatText (approval hugeWord) "cd" none emptyDecodeContext = .ok d ∧
      (("amount" : Text), rawUnits 0) ∈ rendered d ∧ wordValue hugeWord = 2 ^ 255 ∧
      ¬ AmountsShown (approval hugeWord) d := by
  obtain ⟨d, hd⟩ := describe_approval hugeWord
  have hvalue : wordValue hugeWord = 2 ^ 255 := rfl
  have hr : (describeDecodedCall noFloatText (approval hugeWord) "cd" none
      emptyDecodeContext).toOption.map rendered =
        some (List.replicate 2 (("amount" : Text), rawUnits 0)) := rfl
  rw [hd] at hr
  have hmem : (("amount" : Text), rawUnits 0) ∈ rendered d := by
    rw [Option.some.inj hr]
    exact List.mem_cons_self
  refine ⟨d, rfl, hd, hmem, hvalue, fun h => ?_⟩
  have hsays : Says (shownText .approve 0) (wordValue hugeWord) :=
    h _ hmem (argFrom "amount" .u128 hugeWord) (List.mem_cons_of_mem _ List.mem_cons_self) rfl
  have hzero := eq_zero_of_says_zero hsays
  omega

end BoingObserver.Contract
