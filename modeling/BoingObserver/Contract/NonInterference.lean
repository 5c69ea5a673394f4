import BoingObserver.Contract.Describe

/-!
# What a description may take from a receipt

A description depends on the receipt only through the reads of
`Contract/Receipt.lean` (`SameReads`), and all of these but `isFailed` sit behind
the success test.  So the logs and the return data of a call that did not succeed
cannot change what is said about it.
-/

namespace BoingObserver.Contract

open Js

/-! ## Receipts with the same reads -/

structure SameReads (r₁ r₂ : Option Receipt) : Prop where
  isFailed : isFailed r₁ = isFailed r₂
  isOk : isOk r₁ = isOk r₂
  swapEvents : swapEvents r₁ = swapEvents r₂
  amountOut : amountOut r₁ = amountOut r₂
  addEvent : addEvent r₁ = addEvent r₂
  removeEvent : removeEvent r₁ = removeEvent r₂
  depositEvent : depositEvent r₁ = depositEvent r₂

/-- Without success, an equal success field is all two receipts need to be read alike. -/
theorem sameReads_of_not_success {r₁ r₂ : Option Receipt} (h : successOf r₁ = successOf r₂)
    (hn : successOf r₁ ≠ some true) : SameReads r₁ r₂ := by
  have s₁ := silent_of_not_success hn
  have s₂ := silent_of_not_success (h ▸ hn)
  exact
    { isFailed := by rw [isFailed, isFailed, h]
      isOk := s₁.isOk.trans s₂.isOk.symm
      swapEvents := s₁.swapEvents.trans s₂.swapEvents.symm
      amountOut := s₁.amountOut.trans s₂.amountOut.symm
      addEvent := s₁.addEvent.trans s₂.addEvent.symm
      removeEvent := s₁.removeEvent.trans s₂.removeEvent.symm
      depositEvent := s₁.depositEvent.trans s₂.depositEvent.symm }

section Congruence

variable {r₁ r₂ : Option Receipt} (h : SameReads r₁ r₂) (call : DecodedCall) (sender : Text)
  (ctx : DecodeContext)

include h

theorem verb_congr (attempted done plain : Text) :
    verb r₁ attempted done plain = verb r₂ attempted done plain := by
  rw [verb, verb, h.isFailed, h.isOk]

theorem describeSwap_congr (fl : FloatText) (viaRouter : Option DecodedCall) :
    describeSwap fl call sender r₁ ctx viaRouter =
      describeSwap fl call sender r₂ ctx viaRouter := by
  simp only [describeSwap, swapHeadline, h.isFailed, h.isOk, h.swapEvents, h.amountOut]

theorem describeLiquidity_congr :
    describeLiquidity call sender r₁ ctx = describeLiquidity call sender r₂ ctx := by
  simp only [describeLiquidity, describeAddLiquidity, describeRemoveLiquidity, h.isFailed,
    h.addEvent, h.removeEvent, verb_congr h]

theorem describeVault_congr :
    describeVault call sender r₁ ctx = describeVault call sender r₂ ctx := by
  simp only [describeVault, describeDeposit, describeWithdraw, describeTransferShares, h.isFailed,
    h.depositEvent, h.removeEvent, verb_congr h]

theorem describeToken_congr :
    describeToken call sender r₁ ctx = describeToken call sender r₂ ctx := by
  simp only [describeToken, describeApprove, describeTransfer, describeTransferFrom, describeMint,
    h.isFailed, verb_congr h]

theorem describeOther_congr :
    describeOther call sender r₁ ctx = describeOther call sender r₂ ctx := by
  simp only [describeOther, describeFungible, describeVault_congr h, describeToken_congr h,
    describeGeneric, h.isFailed]

/-- **A description depends on the receipt through its reads only.** -/
theorem describeDecodedCall_congr (fl : FloatText) :
    describeDecodedCall fl call sender r₁ ctx = describeDecodedCall fl call sender r₂ ctx := by
  simp only [describeDecodedCall, describeSwap_congr h, describeLiquidity_congr h,
    describeOther_congr h]

end Congruence

/-! ## Wordings -/

/-- How the headline of a reverted call starts. -/
def attemptedWording : DescriptionKind → Text → Text
  | .approve, _ => "Attempted to approve "
  | .transfer, _ => "Attempted to send "
  | .transferFrom, _ => "Attempted to move "
  | .swap, _ => "Attempted to swap "
  | .addLiquidity, _ => "Attempted to add liquidity: "
  | .removeLiquidity, _ => "Attempted to remove liquidity: burn "
  | .vaultDeposit, _ => "Attempted vault deposit: "
  | .vaultWithdraw, _ => "Attempted vault withdrawal: burn "
  | .vaultTransferShares, _ => "Attempted to send "
  | .mint, _ => "Attempted initial mint of "
  | .call, title => "Attempted " ++ title ++ " on "

/-- How the headline of a completed call starts. -/
def completedWording : DescriptionKind → Text → Text
  | .approve, _ => "Approved "
  | .transfer, _ => "Sent "
  | .transferFrom, _ => "Moved "
  | .swap, _ => "Swapped "
  | .addLiquidity, _ => "Added liquidity: "
  | .removeLiquidity, _ => "Removed liquidity: burned "
  | .vaultDeposit, _ => "Deposited into vault: "
  | .vaultWithdraw, _ => "Withdrew from vault: burned "
  | .vaultTransferShares, _ => "Sent "
  | .mint, _ => "Minted initial supply of "
  | .call, title => "Called " ++ title ++ " on "

structure SaysAttempted (d : TxDescription) : Prop where
  failed : d.failed = true
  attempted : attemptedWording d.kind d.title <+: segmentsToText d.headline
  not_completed : ¬ completedWording d.kind d.title <+: segmentsToText d.headline

/-- Every wording differs from its completed form within the first two letters. -/
theorem attempted_ne_completed (kind : DescriptionKind) (title : Text) :
    (attemptedWording kind title).take 2 ≠ (completedWording kind title).take 2 ∧
      2 ≤ (attemptedWording kind title).length ∧ 2 ≤ (completedWording kind title).length := by
  cases kind with
  | call =>
    refine ⟨fun h => ?_, ?_, ?_⟩
    · have ha : ('A' : Char) = 'C' := (List.cons.inj h).1
      exact absurd ha (by decide)
    · exact Nat.le_add_left 2 _
    · exact Nat.le_add_left 2 _
  | _ =>
    dsimp only [attemptedWording, completedWording]
    decide

theorem saysAttempted_of_head {d : TxDescription} {rest : List Segment} (hf : d.failed = true)
    (h : d.headline = txt (attemptedWording d.kind d.title) :: rest) : SaysAttempted d where
  failed := hf
  attempted := by
    rw [h]
    exact ⟨segmentsToText rest, rfl⟩
  not_completed := by
    obtain ⟨hne, ha, hc⟩ := attempted_ne_completed d.kind d.title
    rintro ⟨s, hs⟩
    have htext : segmentsToText d.headline =
        attemptedWording d.kind d.title ++ segmentsToText rest := by
      rw [h]
      rfl
    have htake := congrArg (List.take 2) (hs.trans htext)
    rw [List.take_append_of_le_length hc, List.take_append_of_le_length ha] at htake
    exact hne htake.symm

section Reverted

variable {receipt : Option Receipt} (hf : isFailed receipt = true) (call : DecodedCall)
  (sender : Text) (ctx : DecodeContext)

include hf

theorem verb_of_failed (attempted done plain : Text) :
    verb receipt attempted done plain = txt attempted := by
  rw [verb, if_pos hf]

theorem describeSwap_reverted (hs : Silent receipt) {fl : FloatText}
    {viaRouter : Option DecodedCall} {d : TxDescription}
    (h : describeSwap fl call sender receipt ctx viaRouter = .ok d) : SaysAttempted d := by
  simp only [describeSwap, swapHeadline, hs.amountOut, hf] at h
  obtain ⟨fees, -, h⟩ := bind_eq_ok h
  obtain rfl := Except.ok.inj h
  exact saysAttempted_of_head rfl rfl

theorem describeLiquidity_reverted (hs : Silent receipt) :
    SaysAttempted (describeLiquidity call sender receipt ctx) := by
  rw [describeLiquidity]
  by_cases hn : call.fn.name = "add_liquidity"
  · simp only [if_pos hn, describeAddLiquidity, hs.addEvent, verb_of_failed hf, hf]
    exact saysAttempted_of_head rfl rfl
  · simp only [if_neg hn, describeRemoveLiquidity, verb_of_failed hf, hf]
    exact saysAttempted_of_head rfl rfl

theorem describeVault_reverted (hs : Silent receipt) {d : TxDescription}
    (h : describeVault call sender receipt ctx = some d) : SaysAttempted d := by
  rw [describeVault] at h
  split_ifs at h
  · obtain rfl := Option.some.inj h
    simp only [describeDeposit, hs.depositEvent, verb_of_failed hf, hf]
    exact saysAttempted_of_head rfl rfl
  · obtain rfl := Option.some.inj h
    simp only [describeWithdraw, verb_of_failed hf, hf]
    exact saysAttempted_of_head rfl rfl
  · obtain rfl := Option.some.inj h
    simp only [describeTransferShares, verb_of_failed hf, hf]
    exact saysAttempted_of_head rfl rfl

theorem describeApprove_reverted {d : TxDescription}
    (h : describeApprove call sender receipt ctx = .ok d) : SaysAttempted d := by
  obtain ⟨spender, -, h⟩ := bind_eq_ok h
  obtain rfl := Except.ok.inj h
  simp only [verb_of_failed hf, hf]
  exact saysAttempted_of_head rfl rfl

theorem describeTransfer_reverted {d : TxDescription}
    (h : describeTransfer call sender receipt ctx = .ok d) : SaysAttempted d := by
  obtain ⟨dest, -, h⟩ := bind_eq_ok h
  obtain rfl := Except.ok.inj h
  simp only [verb_of_failed hf, hf]
  exact saysAttempted_of_head rfl rfl

theorem describeTransferFrom_reverted {d : TxDescription}
    (h : describeTransferFrom call sender receipt ctx = .ok d) : SaysAttempted d := by
  obtain ⟨owner, -, h⟩ := bind_eq_ok h
  obtain ⟨dest, -, h⟩ := bind_eq_ok h
  obtain rfl := Except.ok.inj h
  simp only [verb_of_failed hf, hf]
  exact saysAttempted_of_head rfl rfl

theorem describeMint_reverted {d : TxDescription}
    (h : describeMint call sender receipt ctx = .ok d) : SaysAttempted d := by
  obtain ⟨dest, -, h⟩ := bind_eq_ok h
  obtain rfl := Except.ok.inj h
  simp only [verb_of_failed hf, hf]
  exact saysAttempted_of_head rfl rfl

theorem describeToken_reverted {d : TxDescription}
    (h : describeToken call sender receipt ctx = .ok (some d)) : SaysAttempted d := by
  rw [describeToken] at h
  split_ifs at h
  · exact describeApprove_reverted hf call sender ctx (map_some_eq_ok h)
  · exact describeTransfer_reverted hf call sender ctx (map_some_eq_ok h)
  · exact describeTransferFrom_reverted hf call sender ctx (map_some_eq_ok h)
  · exact describeMint_reverted hf call sender ctx (map_some_eq_ok h)
  · cases h

theorem describeOther_reverted (hs : Silent receipt) {d : TxDescription}
    (h : describeOther call sender receipt ctx = .ok d) : SaysAttempted d := by
  rcases describeOther_eq_ok h with ⟨-, hv⟩ | ⟨-, hfun⟩
  · exact describeVault_reverted hf call sender ctx hs hv
  rcases describeFungible_eq_ok hfun with ⟨-, ht⟩ | ⟨-, rfl⟩
  · exact describeToken_reverted hf call sender ctx ht
  · simp only [describeGeneric, hf]
    exact saysAttempted_of_head rfl rfl

/-- **A description of a reverted call says so.** -/
theorem describeDecodedCall_reverted (hs : Silent receipt) {fl : FloatText} {d : TxDescription}
    (h : describeDecodedCall fl call sender receipt ctx = .ok d) : SaysAttempted d := by
  rcases describeDecodedCall_eq_ok h with ⟨-, hd⟩ | ⟨-, -, v, hd⟩ | ⟨-, -, -, rfl⟩ | ⟨-, -, -, hd⟩
  · exact describeSwap_reverted hf call sender ctx hs hd
  · exact describeSwap_reverted hf _ sender ctx hs hd
  · exact describeLiquidity_reverted hf _ sender ctx hs
  · exact describeOther_reverted hf call sender ctx hs hd

end Reverted

/-- **Receipt non-interference**: without success, the logs and the return data change nothing, and
a reverted call is described as attempted. -/
theorem receipt_noninterference (fl : FloatText) (call : DecodedCall) (sender : Text)
    (ctx : DecodeContext) {r₁ r₂ : Option Receipt} (h : successOf r₁ = successOf r₂)
    (hn : successOf r₁ ≠ some true) :
    describeDecodedCall fl call sender r₁ ctx = describeDecodedCall fl call sender r₂ ctx ∧
      (successOf r₁ = some false →
        ∀ d, describeDecodedCall fl call sender r₁ ctx = .ok d → SaysAttempted d) := by
  refine ⟨describeDecodedCall_congr (sameReads_of_not_success h hn) call sender ctx fl, ?_⟩
  intro hfalse d hd
  exact describeDecodedCall_reverted (decide_eq_true hfalse) call sender ctx
    (silent_of_not_success hn) hd

/-- An approval with a forged success log and without: both reverted. -/
theorem receipt_noninterference_approve :
    let call := TableCall "fungible-v2" "ab" ⟨8, "approve", [acct "spender", u128 "amount"], .write,
      [], [], none, none⟩ [wordOf 8, wordOf 1, wordOf 7]
    let r₁ : Option Receipt := some ⟨some false, some (wordOf 1), some [⟨some [wordOf 5], none⟩]⟩
    let r₂ : Option Receipt := some ⟨some false, none, none⟩
    describeDecodedCall noFloatText call "cd" r₁ emptyDecodeContext =
        describeDecodedCall noFloatText call "cd" r₂ emptyDecodeContext ∧
      (successOf r₁ = some false →
        ∀ d, describeDecodedCall noFloatText call "cd" r₁ emptyDecodeContext = .ok d →
          SaysAttempted d) :=
  receipt_noninterference _ _ _ _ rfl (by decide)

end BoingObserver.Contract
