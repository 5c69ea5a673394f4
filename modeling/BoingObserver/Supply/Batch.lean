import BoingObserver.Payload.Summary
import BoingObserver.Supply.MintFirst

/-!
# The mint inside a batch

`calldataFromTxPayload` of `fungible-mint-supply.ts`, which looks for the calldata a
transaction sends to a token, against `batchSteps` of `tx-payload.ts`, which lists the
steps of a batch.

The node sends the steps in `calls`, and `batchSteps` reads them there; the search reads
`steps`.

* `calldataFromTxPayload_calls`: the search finds nothing in a batch of the node.
* `listsMint_iff`: what `batchSteps` lists of it.
* `batch_agree_iff`: the two agree iff no step mints the token.
* `findsMint_steps_iff`: what the search would find if the field were `steps`.
-/

namespace BoingObserver.Supply

open Js Rpc Contract Payload

/-! ## The search -/

/-- `v && typeof v === "object"`, with the fields; an array has none of the fields read here. -/
def asRecord? : Value → Option Fields
  | .object fields => some fields
  | .array _ => some []
  | _ => none

/-- What `for (const v of value)` goes over. -/
def iterate : Value → Except JsError (List Value)
  | .array items => .ok items
  | .string s => .ok (s.map fun c => .string [c])
  | _ => .error .typeError

section

variable (nt : NumberText)

def tryCall (want : Text) (body : Fields) : Option Value :=
  if toLowerCase (hexForLink nt (body.get "contract")) ≠ want then none
  else if (body.get "calldata").isNullish then none
  else some (body.get "calldata")

/-- The calldata of a call to the wanted contract, if it is `mint_first`. -/
def tryMint (want : Text) (body : Fields) : Option Value :=
  (tryCall nt want body).filter fun cd => (parseMintFirstFromCalldata nt cd).isSome

/-- Flat shape: the `kind` speaks of a contract. -/
def saysContract (p : Fields) : Bool :=
  includes (toLowerCase (nt.stringOf ((p.get "kind").orElse (.string [])))) "contract"

def stepCalldata (want : Text) (s : Fields) : Option Value :=
  ((asRecord? (s.get "ContractCall")).bind (tryMint nt want)).or
    (((asRecord? (s.get "ContractCallWithValue")).bind (tryMint nt want)).or
      (if saysContract nt s then tryMint nt want s else none))

def batchCalldata (want : Text) (batch : Fields) : Except JsError (Option Value) := do
  let steps ← iterate ((batch.get "steps").orElse (.array []))
  pure (steps.findSome? fun step => (asRecord? step).bind (stepCalldata nt want))

def calldataFromTxPayload (payload : Value) (token64 : Text) : Except JsError (Option Value) :=
  match asRecord? payload with
  | none => .ok none
  | some p =>
    let want := toLowerCase token64
    let flat := if saysContract nt p then tryCall nt want p else none
    match (asRecord? (p.get "ContractCall")).or (asRecord? (p.get "ContractCallWithValue")) with
    | some body => .ok (tryCall nt want body)
    | none =>
      match asRecord? (p.get "Batch") with
      | some batch => (batchCalldata nt want batch).map fun found => found.or flat
      | none => .ok flat

end

/-! ## Batches -/

inductive TaggedStep
  | unit (tag : Text)
  | tagged (tag : Text) (body : Value)

def TaggedStep.value : TaggedStep → Value
  | .unit tag => .string tag
  | .tagged tag body => .object [(tag, body)]

/-- A batch with its steps in a field of this name; the node's is `calls`. -/
def batchPayload (field : Text) (steps : List TaggedStep) : Value :=
  .object [("Batch", .object [(field, .array (steps.map TaggedStep.value))])]

section

variable (nt : NumberText) (token : Text)

/-- Calldata of `mint_first`, addressed to the token. -/
def IsMintTo (contract calldata : Value) : Prop :=
  toLowerCase (hexForLink nt contract) = toLowerCase token ∧
    (parseMintFirstFromCalldata nt calldata).isSome = true

/-- The search finds calldata of `mint_first`. -/
def FindsMint (payload : Value) : Prop :=
  ∃ cd, calldataFromTxPayload nt payload token = .ok (some cd) ∧
    (parseMintFirstFromCalldata nt cd).isSome = true

/-- The steps listed have a call of `mint_first` to the token. -/
def ListsMint (payload : Value) : Prop :=
  ∃ contract calldata value,
    BatchStep.contractCall contract calldata value ∈ batchSteps nt (getTxPayloadInner payload) ∧
      IsMintTo nt token contract calldata

def TaggedStep.Mints : TaggedStep → Prop
  | .unit _ => False
  | .tagged tag body => resolveTaggedPayloadKind tag = some (.known .contractCall) ∧
      IsMintTo nt token (body.get "contract") (body.get "calldata")

end

section

variable {nt : NumberText} {token : Text}

/-- **The search finds nothing in a batch of the node.** -/
theorem calldataFromTxPayload_calls (steps : List TaggedStep) :
    calldataFromTxPayload nt (batchPayload "calls" steps) token = .ok none := rfl

theorem not_isMintTo_undefined {contract : Value} : ¬ IsMintTo nt token contract .undefined :=
  fun h => absurd h.2 Bool.false_ne_true

/-! ## What `batchSteps` lists -/

/-- A step is listed as a mint iff it is a contract call whose fields are those of one. -/
theorem exists_batchStep_iff (c : Value) :
    (∃ contract calldata value, batchStep nt c = .contractCall contract calldata value ∧
      IsMintTo nt token contract calldata) ↔
    (unwrapTaggedPayload c).2.getD (getTxPayloadKindFlat (unwrapTaggedPayload c).1) =
        .known .contractCall ∧
      IsMintTo nt token ((unwrapTaggedPayload c).1.get "contract")
        ((unwrapTaggedPayload c).1.get "calldata") := by
  simp only [batchStep]
  split
  next h =>
    rw [h]
    refine iff_of_false ?_ fun hkind => by cases hkind.1
    rintro ⟨contract, calldata, value, hstep, -⟩
    cases hstep
  next h =>
    rw [h]
    constructor
    · rintro ⟨_, _, _, hstep, hmint⟩
      obtain ⟨rfl, rfl, -⟩ := BatchStep.contractCall.inj hstep
      exact ⟨rfl, hmint⟩
    · rintro ⟨-, hmint⟩
      exact ⟨_, _, _, rfl, hmint⟩
  next _ h =>
    refine iff_of_false ?_ fun hkind => h hkind.1
    rintro ⟨contract, calldata, value, hstep, -⟩
    cases hstep

theorem unwrapTaggedPayload_tagged {tag : Text} {kind : TxPayloadKind}
    (h : resolveTaggedPayloadKind tag = some kind) (body : Value) :
    (unwrapTaggedPayload (.object [(tag, body)])).2 = some kind ∧
      ∀ k, (unwrapTaggedPayload (.object [(tag, body)])).1.get k = body.get k := by
  cases body <;> simp only [unwrapTaggedPayload, h] <;> exact ⟨trivial, fun k => rfl⟩

theorem get_singleton_of_ne {k tag : Text} (body : Value) (h : k ≠ tag) :
    Fields.get [(tag, body)] k = .undefined := by
  rw [Fields.get, List.lookup_cons, beq_false_of_ne h]
  rfl

theorem not_mint_of_noTag {tag : Text} (body : Value)
    (hkind : getTxPayloadKindFlat [(tag, body)] = .known .contractCall) :
    ¬ IsMintTo nt token (Fields.get [(tag, body)] "contract")
      (Fields.get [(tag, body)] "calldata") := by
  by_cases htag : tag = "calldata"
  · subst htag
    cases hkind
  · rw [get_singleton_of_ne body (Ne.symm htag)]
    exact not_isMintTo_undefined

theorem exists_batchStep_tagged_iff (s : TaggedStep) :
    (∃ contract calldata value, batchStep nt s.value = .contractCall contract calldata value ∧
      IsMintTo nt token contract calldata) ↔ s.Mints nt token := by
  rw [exists_batchStep_iff]
  cases s with
  | unit tag => exact iff_of_false (fun h => not_isMintTo_undefined h.2) id
  | tagged tag body =>
    rw [TaggedStep.value, TaggedStep.Mints]
    cases htag : resolveTaggedPayloadKind tag with
    | none =>
      have hunwrap : unwrapTaggedPayload (.object [(tag, body)]) = ([(tag, body)], none) := by
        simp only [unwrapTaggedPayload, htag]
      rw [hunwrap]
      exact iff_of_false (fun h => not_mint_of_noTag body h.1 h.2) fun h => by cases h.1
    | some kind =>
      obtain ⟨hkind, hget⟩ := unwrapTaggedPayload_tagged htag body
      rw [hkind, hget, hget, Option.getD_some, Option.some.injEq]

/-- **What `batchSteps` lists of a batch of the node.** -/
theorem listsMint_iff (steps : List TaggedStep) :
    ListsMint nt token (batchPayload "calls" steps) ↔ ∃ s ∈ steps, s.Mints nt token := by
  have hsteps : batchSteps nt (getTxPayloadInner (batchPayload "calls" steps)) =
      steps.map fun s => batchStep nt s.value := List.map_map
  constructor
  · rintro ⟨contract, calldata, value, hmem, hmint⟩
    rw [hsteps] at hmem
    obtain ⟨s, hs, hstep⟩ := List.mem_map.mp hmem
    exact ⟨s, hs, (exists_batchStep_tagged_iff s).mp ⟨_, _, _, hstep, hmint⟩⟩
  · rintro ⟨s, hs, hmints⟩
    obtain ⟨contract, calldata, value, hstep, hmint⟩ := (exists_batchStep_tagged_iff s).mpr hmints
    refine ⟨contract, calldata, value, ?_, hmint⟩
    rw [hsteps]
    exact List.mem_map.mpr ⟨s, hs, hstep⟩

/-- **Search and steps agree** on a batch of the node iff no step of it mints the token. -/
theorem batch_agree_iff (nt : NumberText) (token : Text) (steps : List TaggedStep) :
    (FindsMint nt token (batchPayload "calls" steps) ↔
      ListsMint nt token (batchPayload "calls" steps)) ↔ ∀ s ∈ steps, ¬ s.Mints nt token := by
  have hfinds : ¬ FindsMint nt token (batchPayload "calls" steps) := by
    rintro ⟨cd, hcd, -⟩
    rw [calldataFromTxPayload_calls] at hcd
    cases hcd
  rw [iff_false_left hfinds, listsMint_iff]
  push Not
  exact Iff.rfl

/-! ## What the search looks for -/

theorem tryCall_eq_some_iff {want : Text} {body : Fields} {cd : Value} :
    tryCall nt want body = some cd ↔
      toLowerCase (hexForLink nt (body.get "contract")) = want ∧ cd.isNullish = false ∧
        body.get "calldata" = cd := by
  rw [tryCall]
  split
  next h => exact iff_of_false (by simp) fun hcd => h hcd.1
  next h =>
    rw [not_not] at h
    split
    next hnull =>
      refine iff_of_false (by simp) ?_
      rintro ⟨-, hsome, rfl⟩
      rw [hsome] at hnull
      cases hnull
    next hsome =>
      rw [Option.some.injEq]
      refine ⟨?_, fun hcd => hcd.2.2⟩
      rintro rfl
      exact ⟨h, Bool.eq_false_iff.mpr hsome, rfl⟩

theorem tryMint_eq_some_iff {want : Text} {body : Fields} {cd : Value} :
    tryMint nt want body = some cd ↔
      toLowerCase (hexForLink nt (body.get "contract")) = want ∧ body.get "calldata" = cd ∧
        (parseMintFirstFromCalldata nt cd).isSome = true := by
  rw [tryMint, Option.filter_eq_some_iff, tryCall_eq_some_iff]
  constructor
  · rintro ⟨⟨hto, -, hcd⟩, hmint⟩
    exact ⟨hto, hcd, hmint⟩
  · rintro ⟨hto, hcd, hmint⟩
    have hsome : cd.isNullish = false := by
      cases cd with
      | undefined | null => cases hmint
      | _ => rfl
    exact ⟨⟨hto, hsome, hcd⟩, hmint⟩

theorem asRecord?_tryMint_iff {want : Text} {body cd : Value} :
    (asRecord? body).bind (tryMint nt want) = some cd ↔
      toLowerCase (hexForLink nt (body.get "contract")) = want ∧ body.get "calldata" = cd ∧
        (parseMintFirstFromCalldata nt cd).isSome = true := by
  cases body with
  | object fields => exact tryMint_eq_some_iff
  | array items => exact tryMint_eq_some_iff
  | _ =>
    refine iff_of_false (by simp [asRecord?]) ?_
    rintro ⟨-, rfl, hmint⟩
    cases hmint

theorem stepCalldata_call {want tag : Text} (h : tag = "ContractCall" ∨ tag = "ContractCallWithValue")
    (body : Value) :
    stepCalldata nt want [(tag, body)] = (asRecord? body).bind (tryMint nt want) := by
  rcases h with rfl | rfl
  · exact Option.or_none
  · exact Option.or_none

theorem stepCalldata_flat {want tag : Text}
    (h : ¬ (tag = "ContractCall" ∨ tag = "ContractCallWithValue")) (body : Value) :
    stepCalldata nt want [(tag, body)] =
      if saysContract nt [(tag, body)] then tryMint nt want [(tag, body)] else none := by
  obtain ⟨hcall, hvalue⟩ := not_or.mp h
  rw [stepCalldata, get_singleton_of_ne body (Ne.symm hcall),
    get_singleton_of_ne body (Ne.symm hvalue)]
  rfl

/-- A call tagged in PascalCase that mints the token, with this calldata. -/
def TaggedStep.IsMintCall (nt : NumberText) (token : Text) (cd : Value) : TaggedStep → Prop
  | .unit _ => False
  | .tagged tag body => (tag = "ContractCall" ∨ tag = "ContractCallWithValue") ∧
      toLowerCase (hexForLink nt (body.get "contract")) = toLowerCase token ∧
      body.get "calldata" = cd ∧ (parseMintFirstFromCalldata nt cd).isSome = true

theorem stepCalldata_eq_some_iff {s : TaggedStep} {cd : Value} :
    (asRecord? s.value).bind (stepCalldata nt (toLowerCase token)) = some cd ↔
      s.IsMintCall nt token cd := by
  cases s with
  | unit tag => exact iff_of_false (fun h => by cases h) id
  | tagged tag body =>
    have hstep : (asRecord? (TaggedStep.tagged tag body).value).bind
        (stepCalldata nt (toLowerCase token)) =
          stepCalldata nt (toLowerCase token) [(tag, body)] := rfl
    rw [hstep, TaggedStep.IsMintCall]
    by_cases hcall : tag = "ContractCall" ∨ tag = "ContractCallWithValue"
    · rw [stepCalldata_call hcall, asRecord?_tryMint_iff]
      exact (and_iff_right hcall).symm
    rw [stepCalldata_flat hcall]
    refine iff_of_false ?_ fun h => hcall h.1
    -- one field is no call with calldata
    by_cases hdata : tag = "calldata"
    · subst hdata
      exact fun h => by cases h
    · intro hflat
      obtain ⟨-, hmint⟩ := Option.ite_none_right_eq_some.mp hflat
      obtain ⟨-, hcd, hparse⟩ := tryMint_eq_some_iff.mp hmint
      rw [get_singleton_of_ne body (Ne.symm hdata)] at hcd
      subst hcd
      cases hparse

/-- **What the search would find if the field were `steps`.** -/
theorem findsMint_steps_iff (steps : List TaggedStep) :
    FindsMint nt token (batchPayload "steps" steps) ↔
      ∃ s ∈ steps, ∃ cd, s.IsMintCall nt token cd := by
  have hsearch : calldataFromTxPayload nt (batchPayload "steps" steps) token =
      .ok (((steps.map TaggedStep.value).findSome? fun v =>
        (asRecord? v).bind (stepCalldata nt (toLowerCase token))).or none) := rfl
  rw [FindsMint, hsearch, Option.or_none]
  constructor
  · rintro ⟨cd, hcd, -⟩
    obtain ⟨v, hv, hfound⟩ := List.exists_of_findSome?_eq_some (Except.ok.inj hcd)
    obtain ⟨s, hs, rfl⟩ := List.mem_map.mp hv
    exact ⟨s, hs, cd, stepCalldata_eq_some_iff.mp hfound⟩
  · rintro ⟨s, hs, cd, hmint⟩
    have hsome : ((steps.map TaggedStep.value).findSome? fun v =>
        (asRecord? v).bind (stepCalldata nt (toLowerCase token))).isSome :=
      List.findSome?_isSome_iff.mpr ⟨s.value, List.mem_map.mpr ⟨s, hs, rfl⟩,
        Option.isSome_iff_exists.mpr ⟨cd, stepCalldata_eq_some_iff.mpr hmint⟩⟩
    obtain ⟨found, hfound⟩ := Option.isSome_iff_exists.mp hsome
    obtain ⟨v, hv, hstep⟩ := List.exists_of_findSome?_eq_some hfound
    obtain ⟨t, -, rfl⟩ := List.mem_map.mp hv
    refine ⟨found, congrArg Except.ok hfound, ?_⟩
    cases t with
    | unit tag => cases hstep
    | tagged tag body => exact (stepCalldata_eq_some_iff.mp hstep).2.2.2

end

/-- A batch of the node whose one step mints 5 units of the token `9`. -/
def mintStep : TaggedStep :=
  .tagged "ContractCall"
    (.object [("calldata", .string mintText), ("contract", .string (wordOf 9))])

/-- **A mint inside a batch is listed and not found.** -/
theorem batchMint_disagree :
    ¬ (FindsMint integersOnly (wordOf 9) (batchPayload "calls" [mintStep]) ↔
      ListsMint integersOnly (wordOf 9) (batchPayload "calls" [mintStep])) := by
  intro h
  have hmints : mintStep.Mints integersOnly (wordOf 9) :=
    ⟨by decide +kernel, by decide +kernel, by decide +kernel⟩
  obtain ⟨cd, hcd, -⟩ := h.mpr ((listsMint_iff _).mpr ⟨_, List.mem_cons_self, hmints⟩)
  rw [calldataFromTxPayload_calls] at hcd
  cases hcd

end BoingObserver.Supply
